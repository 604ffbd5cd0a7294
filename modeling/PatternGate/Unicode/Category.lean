import PatternGate.Unicode.RangeCode

/-!
# General categories

Every code point has one general category. A name stands for one category or for a group of them:
the letter `L` for all letters, `LC` for the letters with case. Surrogates are no characters, so
their category cannot be asked for on its own. They still count in the group `C`, where they join
the code points below them to those above into one range.
-/

namespace PatternGate.Unicode

/-- The general categories, each with its names. -/
def categoryRows : List Row := [
  ⟨["lu", "uppercaseletter"],
    ["BtpCtm16x0101010101010101010101010101010101010101010101010101010201010101010101020101010",
     "1010101010101010101010101010101010101011101031101112231112311110101110201112101130702020",
     "2010101010101010201010101010101010202012101010101010101010101010101010101010101010101010",
     "10101010107111201310101010I10103080601210111g18z0223010101010101010101010105020112BeBc01",
     "0101010101010101010101010101010901010101010101010101010101010101010101010101010101010111",
     "0101010101020101010101010101010101010101010101010101010101010101010101010101010101010101",
     "01010101010101010102B1DC9B11050U2CdCIz06B622Iw010101010101010101010101010101010101010101",
     "0101010101010101010101010101010101010101010101010101010101010101010101010101010101010101",
     "0101010101010101010901010101010101010101010101010101010101010101010101010101010101010101",
     "010101010101010101010101010109785a78785b010101087C03c3c3c4b3Ha040322220346010101323a150B",
     "p0CWkBbBc0122010101310208210101010101010101010101010101010101010101010101010101010101010",
     "101010101010101010101010101010101010801040BHEl010101010101010101010101010101010101010101",
     "010j010101010101010101010101010Dr0101010101010301010101010101010101010101010101010101010",
     "10101010101010101010a0101110101010401020103010101010101010101014141010101010101013101130",
     "50101010o0XVvpBHxB3DszEca1e1611BX6BeEdlDBuvXK0vBBUopqpqpq01120212317qpq1132716r113141036",
     "rpqpqpqpqpqpuoxoxoxoxox0ESdx"]⟩,
  ⟨["ll", "lowercaseletter"],
    ["CppBm0B5n1710101010101010101010101010101010101010101010101010101011101010101010101110101",
     "0101010101010101010101010101010101010101020101220102031402032202010102011102030102122602",
     "0201010101010101011101010101010101011201030101010101010101010101010101010101010101010101",
     "0101010101016202110401010101Bw1qFd0103032i0ry1132101010101010101010101014102021BfBb10101",
     "0101010101010101010101010101090101010101010101010101010101010101010101010101010101020101",
     "0101010111010101010101010101010101010101010101010101010101010101010101010101010101010101",
     "01010101010101010BcB4DC7B622V45CIi810D9B7Brc1xCu0101010101010101010101010101010101010101",
     "0101010101010101010101010101010101010101010101010101010101010101010101010101010101010101",
     "0101010101010101010181010101010101010101010101010101010101010101010101010101010101010101",
     "010101010101010101010101010101885a78785a7878d2787878411603211832187a211Hm03130r040402183",
     "40Bh0CXvBb103110101040111550101010101010101010101010101010101010101010101010101010101010",
     "10101010101010101010101010101010101011701040cB11050BHCz010101010101010101010101010101010",
     "101010101010j010101010101010101010101010Dr0101010101012101010101010101010101010101010101",
     "0101010101010101010101010101017101020101010104010201210101010101010101010505010101010101",
     "010401020301010101010q030WtB6587C7VRk6c4BDlpBI5B3DszEba1e1611BXvBeDhlDBuvXK0vBBUipq61hqp",
     "q310161aqpqpqpqpqpqpqpqpqrso15qo15qo15qo15qo1510BZ891j65CSvx"]⟩,
  ⟨["lt", "titlecaseletter"], ["Ml02020B20ICd78787c0f0Bb0"]⟩,
  ⟨["lm", "modifierletter"],
    ["T4h4be47010Dp050Na0Ge0Ek1Hh140v09030Eg0En0BIc0Dj0Pp0BWq0Cz0Qz0Mw5EuBqd0yB0T50d0gcDGf1Gp0",
     "Fb0N10B7450Cp1Cl2BEJy0BIq5Hi0D60s1Dd8C80n0Cx231N10m0Dt0D00l1Cv390WZi0B91CE051B518BNn0w0Z",
     "R43O42B41PacBs110RNg31611NEpBpFl6BA50BF30"]⟩,
  ⟨["lo", "otherletter"],
    ["Eq0f0H4043Fs0Wzq43B9v19z11Cq10o1a220g01ttCgb0owllB6o7a5n15hB4BnBh30i079ge47212l16103330g",
     "0d112e1a085412l16111111v310j2g8121l16111430i0f1n0b7212l16111430u112f0h015321331101131323",
     "bm0Bg7121m1f30q22021u047121m191430v111f1h8121B420g05282o55h3n181026BmBb11c5Bn110141n1019",
     "119024n3w0Br71zr4D7B6k0g5433031724cc0D5J4132610132B4132w132610132e1Bk132BuB1fD5R72g1p5C2",
     "677hdiehec12fBfB40Bvy1Bg742x105BxauBdt24bB74pBim9BgEwBah7Bitd1aB7qzB52atD53151130BE23DH3",
     "Bjom9616161616161616Pb0Bh04Cd801Ch405B61ClhvBcfO8HB3BsWLo1BFqBvB38Hf4fa1Bu0BdBxEp0Cv0361",
     "2131mtBfeBdBq53011bramps7BaB9428a41B4n217kf15303Bd1031242010o13a70e525259616E1ytLYbcm4Bc",
     "JAsK52CxBv0191c141011111CzxK2iBr2BhB4bD841DqCx91B82u35252522zb1p1i111e2dyDeKts3BcBbvdj17",
     "6B1at2z47DkC5CqB38BfCkBfcIm9la7E85201B711302mam9uBti11alapByBj61Bs0f3121sB6s3sz71rrBhala",
     "idhD2C0F3zB2310IgB561g2Bnsa08lB6hBakrmcBgBl120dB8woqzt0208y30cBbe3l010zh1oj1Br610131e197",
     "BaB27212l16111430i0c4u910201B110p010B8Bgi3k2uBbk110F4BaB53B0Bbk0BnB6d0BzqB16F5B7Fv720271",
     "11nf010Cm72B2g010s0aB370l0bB9j0iC0Fjwv81B0h0BdtD46111B1l0p5111ve0J3if01c1xDg0C7ZlGeFfCV8",
     "CofBDrh5pEGy5Q6HI1tBWyPs7uhC6htiBbBfk5iM3B3L9C250EvGOf8BIdB59JOnI2f0t220e38KzCM4Cy5c3879",
     "JKw0NxB8x0IxtiB7NgqGdt20Nr613111e1FgBL731q1110201913101060401010121110201010101011102316",
     "131310191g52141gESsBTQnwELd6G52GE1eHZkfR9CQiP1BPuFH65EMf"]⟩,
  ⟨["mn", "nonspacingmark"],
    ["VcD3Hn4HdB810111110C0aBckg0Ct6252113z0uqCjaBm890o3181214B72Bn8B6n1vBj010474036a1t0Bm0438",
     "0k1q021Bl041412230u130b1Bl0441140k1m510Bm020138071b1u0Bp0c0Be030Bj012521371b1t0Bm0206051",
     "k1s1Bl14380k1t0C007210Ci026c7Cq028b6C11r01010Bjd14115a1z90Cu3151121p142g3d02160f0Tj2BAa2",
     "t1u1u1Bs116802a90B9210D91y0Da2419062G3120Bm0161010276920Bcd1fBd3Bc0141050B48c1w32112Bk01",
     "13012Bm721E821c16406031FiBrU0c403bDHa2Dx0CovPe3Cz1BGFw049w1C81Hk03040p150E71qhd0B27paBa2",
     "Bc02321B30Bv52121c080Bb0Bf012215110B6180Gm02040VR40UhfgfBB10Ga0E54BUe21153B4240El1Px3Bt4",
     "It1C73ByaBd3Df0BieB5021a2Bd32170Bp2B0417Bq0c1Bg8a320Cn220116020Ed037l1Bl130B1634By5d0101",
     "0e1Cd72210n0Cc5104111Gm36111r1Cd72011Cy0102510Ct0102314H7811H411040E032140w9B4523809522B",
     "ac11La61510Cal261111De530111610C013010Jn1b1Bg45010n0FSl06eMGgb32CRc4Bn6BD40Br3C90UZk1FAp",
     "B92mP42h726u3E42CCzBi4Bd80e0m41eBLs61g261114Cs0Eg6Kf0Bp3O43H21Ug6D16BGORxGn"]⟩,
  ⟨["mc", "spacingmark"],
    ["CM30Bj0228311Be1Bm26121a0B70Bm2Bu0Bm28011Bh1Bm0106121a0Cu1113212a0B52Bp3Bp1Bm014211191s0",
     "e1Bm25212a0B61C3267i1J61Br0Er1406021p1a226l12520a2BU00u0Dl07711Jm3224115G81Bm010901185E1",
     "0Bc0501411Bp0u04120Bo0221031Bc781Er0l0FGm1BGUz120Cg1BefDy1Bb0Bc14122D2121o0B9010D102150G",
     "l1111110BBJn010Dj0B9241D70o1Bn0Bc291d0Cl23110Eq2v1Bm113212290a1Cc27020131110Ct28130Cy260",
     "1320Gl26320D528110D101160Cv01140H9290Gv511402010Dy28340Cc0t1Bq0Lb0e0Cy07020Fx44110Jq1c0B",
     "c18110SAo2DWkBiCw1BAQz165"]⟩,
  ⟨["me", "enclosingmark"], ["BG81GBw0BRi312BKNn2"]⟩,
  ⟨["nd", "decimalnumber", "digit"],
    ["Bc9BRq9Dq9Fi9Lg9Da9Da9Da9Da9Da9Da9Da9Da9Da9Co9Da9By9Hq9By9BZq9B29Ic9Dk9Em969F29Ce9Dq969B",
     "LRq9Su9B29Fi9m9Ce9La9WSu9BNa9CIm969W49Dk9Bo9E09Hq9Ji9Da9Ke9Cu96jC49Lq9Cu9Se9Ce9Gu9By9Lq9",
     "SA69CN29Ce9Dq9Ou9BACu9CZ0BdCNs9Lq9Ny9Gv9Xp9FC69"]⟩,
  ⟨["nl", "letternumber"], ["GH22CW7y23DZ20p8e2BGLv9YS8BgMs080Dq4IUqD2"]⟩,
  ⟨["no", "othernumber"],
    ["Ey15022CNh5Kg5Dc2Dp6G16h8M19BDxjBFn9Nc0BUt03569FifB50U6BnC6lRitBMh0BGk3Du9u71ew9B3eBGD45",
     "YHlB8Bt3h1JhqB03BL07p6B38C34m5Eg12f2B9Bs8Bg1u2C34Cw7o7B56J65JsuEe9B63D46DqjKjjBLh1Ly8Y7i",
     "XnkUR26W6mBBK9jcjD0oFVi8ZtBm1213C4B81eBAqc"]⟩,
  ⟨["pc", "connectorpunctuation"], ["Cn0ISn1j0CIRq1o2Gn0"]⟩,
  ⟨["pd", "dashpunctuation"],
    ["B90BM40Bf0DXd0BCl0CF55DVl020v140s0Me0j0D30CEFs1B10a0Ep0DY80Iu0"]⟩,
  ⟨["ps", "openpunctuation"],
    ["B40Be0v0EAu010CAe0CPi030B20Bj0f0Rm010u0BE60101010101010C80w010101010L8010101010101010101",
     "010Bs010x0BDh0101010p0i0101010Lw0101010103010101020CECp0Fz0t01010101010101030h01010Eq0Be",
     "0v03020"]⟩,
  ⟨["pe", "closepunctuation"],
    ["B50Bf0v0EAt010CAe0CQp0Bj0f0Rm010u0BE60101010101010C80w010101010L8010101010101010101010Bs",
     "010x0BDh0101010B80101010Lw0101010103010101021CECm0G10t01010101010101030h01010Eq0Bf0v0202",
     "0"]⟩,
  ⟨["pi", "initialpunctuation"], ["Er0IPg02120p0DU00104020f030"]⟩,
  ⟨["pf", "finalpunctuation"], ["F70IP1030s0DU00104020f030"]⟩,
  ⟨["po", "otherpunctuation"],
    ["x212201011a131r0Bw050e170Ti080My5B50Bi02020B81k111d012C23Cu0B7dGh2Biev0H91a0Dw0Dc0Dd0Ku0",
     "c0K70Ci0a1Eoe10D40C2441D35Er0R08Vh0Dg2Bz1Ed212B1513Ip1G01Dk615Eg1a6s2Dg3Bn4Bq1Bs7b0X6187",
     "8823223a1019DLm311D40Dz1422028111021a41923101c22Lw2Bl0F90BFSy1Hh2Cr0a0D75Kk3Ce1B4210Bd1B",
     "b0Cpcg1Dg3Di1g1Gx0WM4620m0k1233213726011E5212201011a131r0B0021Le2Sk0Bc0Li0Un0Fj0v0Hk8B20",
     "D46Bu6Ch3BAg4B83F96D1113Di3Bc1C7340d012Cg5Cz0Ia111D64a110Cw0GymCx2scC40Dm2H00Hc2Eb0Ck7Cb",
     "214Cl9Fz0Cn4B61Rx1C2cEv0BFk4DDo1PZv1Dp0Bt480Pc2I73J30UZo0IEn4DDf0Xy1"]⟩,
  ⟨["sm", "mathsymbol"],
    ["B70g2Bp010B9040B10v0Va0On2HEj0d0B32d2Dv0B3460Bw45140202070v12010vHfw1Ci0uoB45N1090Bi7D30",
     "Jc42uafH4DmmBq4v2H5Bck25CEW40Ww012Ek0g2Bp010Dn063DSx1CDAp0p0v0p0v0p0v0p0v0p0GIs1"]⟩,
  ⟨["sc", "currencysymbol"],
    ["B00Dh3BIx0Df0Nu1Nu170Gt0Hb0Q50CQb0CKcwBLBb0XLv0D00Ea0G3131ITa3CBJi0CQw0"]⟩,
  ⟨["sk", "modifiersymbol"],
    ["Cm010Bz0604030Oh3cd56101gD90e1BJm0GJ0012b2d2d2d1EO41BGJvm91Cv1BB40e1VYugYr010Ei0COTr4"]⟩,
  ⟨["so", "othersymbol"],
    ["Em0204010BB50He1Dj1Fq0a0j1Gv0Ob0Kd0Dm510Do0Fr0B50Kv2f01225k01010Dp7151153Fh1Uw9U30U20Edx",
     "Jt998BN711311a0116510101040b1e01110Bm194231111161u21101uHg74j262C81tpB36BzmaC9C5mF2181Bh",
     "8D21GvB8B7BsH3O8Bbl16B22v1CwGd5Jx1Bap1CgcFxqf40d1c0l161Jc149wB190gubt80fvaB2fIvHB4BrXRkB",
     "iY13a110Px2WQmfDj0B92Ng03041d1Ip8Blg221c30BbB8BU21Qf0DKm0CJ174gUPe350WGe0EFfGngM3EcD7BoG",
     "taB22Bn52m17t4BolBt30F6CeBH5O7Bj3Be71d11BW80DCs0Dl0U1B74Crce2e1e1B0nEgBksdB74871e5EaGy5U",
     "74g3c3Da4Cm6b40fb4Bj896B38t2b41BqJfcd2c395Bj7e2a687E21Cj"]⟩,
  ⟨["zs", "spaceseparator"], ["w0Dj0FZj0CPjaB00Bb0EH40"]⟩,
  ⟨["zl", "lineseparator"], ["IUo0"]⟩,
  ⟨["zp", "paragraphseparator"], ["IUp0"]⟩,
  ⟨["cc", "control", "cntrl"], ["0vCnw"]⟩,
  ⟨["cf", "format"],
    ["Et0BLu5m0Fc0Bd0Ko1C80EDv0CEs4q4Bd419CIWn0Gx2EP50f0JRmfBLHs3FRz7BGUY60uCn"]⟩,
  ⟨["co", "privateuse"], ["CJGwGVrBLUE0CSAd2CSAd"]⟩,
  ⟨["cn", "unassigned"],
    ["Yo1637010k0L10B21Be130Bj7r36aHi0Bo1CtdBn1Bd1f0s110b4v024Gl08121m0701241912147132051p1306",
     "321m07020202110532132164016h9309030m0702051a030311e41c670308121m0702051912136332051i9206",
     "230422010222232c3523041151dl4d030n0g190304620311141a6m030n0a051903046252041a03bd030Bf030",
     "63g1q030i2o090117213601085a13bBm3tB0201050o010n1501070a14vC00B03B30B00f0dB0Fi01411Kh0417",
     "01041B5041x041701041f0Bl041Bv1w2q5Ce161Sl2Ch6m8o8kbd0302bCm1a5a5q5Ch6B74By9v0c3c312B615a",
     "B83q5b2Bq1Bt0t1b5a5e1vBcC50Em7Bo2f2Bq4B71b7B74Ou161B216180101010v1Bh0f0e160j13090Ct0c1r0",
     "d2xexeDw3SilbkBYc1w0Jp4B901411Bk62do87070707070707070Dixq0ChbFypC80Ce1Cv4B70Cm0Ce8Bc0BFH",
     "p2Bj8JojF47Fq120108kBn2a5Bk7By7c5D8au2C60b3x0Bj8e1a1Cvns96161687070Bo3Di1a5LYcbn3Bd3JKu1",
     "CyB17b54q050102020DhfMd1Bi61vB65Bf0j04350Dr110Fa261616132707951c0q0j020f1exDf433B92Cg0d2",
     "1BaBaDlt2Bdes3B08u4B74u0B13eB5Ee1a5B03B03B47Bgac0f07020b0f07022BgbIn8m98n60B609Bw6110B80",
     "2211n0C079Bbj024x2r41BrBk3k1Be0248030t133a696BsvB33c8Bi2t1r4q64b7C7C1BiBfcBf6Ba7a5B22t72",
     "Frv0B60312f3BiB87B6lqB1sjn8C63B08Bw911p6a5Bh0i7B38Co0kai0BbBp701040f0b5Bn4a5408121m07020",
     "50a12131151471725aa01110B20a0111040a0272sCk05tC07aElBi1B2xBxaa5diBm5a5krr1f3nF4BoCrCbb81",
     "118020u021c8aBx81Ba1bqC07CbcC16aF1yda590B90e9t2w1m0eC07020B82102097a56020B102066aIlp6h0B",
     "52tCc1eBecZnCtD305aFgCV7CrcBEu9EGz4Q7HI0BmBW5Pt6v0a3C90a5u169By9a070l4jLzBmFhCjCsC33Bl6h",
     "Br5a2dGOg7BIeB4aJO6407020I3e1s311d47L0CM3Cz4d296a18EF7Gy5M4C3Ba1n8D8BnGu9B31FekByDdkbkbC",
     "f8pDqCd0Bz021112140c01070Bt0418070s040501270Jg1I41Tie50fBEnv56Fw70h1702054Bqw1D3B92e1a32",
     "IvvgBm41MvB6FxB731Nb704020f0Fh1gB4C43a32VsBwC3BpFd40r0201110a040101513101010302011101010",
     "101020114070404010a0h43050hBf2HhB83Csbf1f0f0B19EuBjtcB83962d6E9BBc3h2d2Db3Cn5c31ec3Bk7a5",
     "B47u1c32BpJgbe1d2a4Bk6f1b596E30CuBClBTQovELe5G61GE2dHZleRaCQhP2BPtFH74EMgBDGL41tCoDjGoCR",
     "MnCSAe1CSAe1"]⟩]

/-- The names of groups of categories, each with the short names of its members. -/
def categoryGroups : List (List String × List String) := [
  (["l", "letter"], ["lu", "ll", "lt", "lm", "lo"]),
  (["lc", "casedletter"], ["lu", "ll", "lt"]),
  (["m", "mark", "combiningmark"], ["mn", "mc", "me"]),
  (["n", "number"], ["nd", "nl", "no"]),
  (["p", "punctuation", "punct"], ["pc", "pd", "ps", "pe", "pi", "pf", "po"]),
  (["s", "symbol"], ["sm", "sc", "sk", "so"]),
  (["z", "separator"], ["zs", "zl", "zp"]),
  (["c", "other"], ["cc", "cf", "cs", "co", "cn"])]

/-- The names of the category of surrogates. -/
def surrogateNames : List String := ["cs", "surrogate"]

/-- The surrogates. -/
def surrogates : RangeSet := [⟨0xD800, 0xDFFF⟩]

/-- The set of one category, by any of its names. -/
def category (name : String) : RangeSet :=
  if surrogateNames.contains name then surrogates else (Row.find? categoryRows name).getD []

/-- The code points of any of the named categories. -/
def categories (names : List String) : RangeSet :=
  names.foldl (fun acc n => RangeSet.union acc (category n)) []

/-- The set of a category or of a group of categories, by name. -/
def categorySet? (name : String) : Option RangeSet :=
  match categoryGroups.find? fun g => g.1.contains name with
  | some g => some (categories g.2)
  | none => Row.find? categoryRows name

end PatternGate.Unicode
