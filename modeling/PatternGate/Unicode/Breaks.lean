import PatternGate.Unicode.RangeCode

/-!
# Break classes

The classes that the rules for grapheme cluster, word and sentence boundaries give to code points.
A code point without a class of its own is in the class `Other`, for which no set is kept.
-/

namespace PatternGate.Unicode

/-- The grapheme cluster break classes. -/
def graphemeRows : List Row := [
  ⟨["control", "cn"], ["09111hCnwd0BMm0EXl0CEs021o6BdfCIWn0GobOH8fBLHs3FRz7BGUY5vCoDjGoDVz"]⟩,
  ⟨["cr"], ["d0"]⟩,
  ⟨["extend", "ex"],
    ["VcD3Hn6HbB810111110C0aBckg0Ct6252113z0uqCjaBm890o3181214B72Bn8B6n1vBj010474036a1t0Bm0102",
     "38090a1q021Bl041412230u130b1Bl0441140k1m510Bm011138072a1u0Bn010c090B4030Bj012521371b1t0B",
     "m02110321371b1s1Bl110238090a1t0C0040221080C9026c7Cq028b6C11r01010Bjd14115a1z90Cu3151121p",
     "142g3d02160f0Tj2BAa3s2t1u1Bs116802a90B9210D91y0Da2419062G3120Bm0161010276920BcuBd3Bc942B",
     "28c1w325Bk0113014Bk721E821c16406031FiBrOk0FfwDHa2Dx0CovPe5Cx1BGFw319w1C81Hk03040p150E71q",
     "hd0B27pa10B82Bc0232120B00Bv52121c080Bb0Bf012215110B6180Gm02040VR40UhfgfK61Qt0Ga0E54BUe21",
     "153B4240El1Px3Bt4It1C73ByaBd3Df0BieB5021a2Bd32170Bp2B0417Bq0c1Bg8108320Cn2236020Ed037l1B",
     "l11010c090e634Bv0251020124210e1Cd72210n0C902510201111Gj0236111r1Cd72011Cy01027Ct0102314H",
     "7811Gt0a340E032140w9B4523809522Bac11La61510Cal261111De530111610C013010Jn1b1Bg452n0FSl06e",
     "MGgb32CRc4Bn6BD40Br3C90b1UZ71FApB92mP24358726u3E42CCzBi4Bd80e0m41eBLs61g261114Cs0Eg6Kf0B",
     "p3O43H21Ug6D16CY04BGLNkCnDkGn"]⟩,
  ⟨["l"], ["EQwCnBPOws"]⟩,
  ⟨["lf"], ["a0"]⟩,
  ⟨["lv"],
    ["BVB40r0r0r0r0r0r0r0r0r0r0r0r0r0r0r0r0r0r0r0r0r0r0r0r0r0r0r0r0r0r0r0r0r0r0r0r0r0r0r0r0r0r",
     "0r0r0r0r0r0r0r0r0r0r0r0r0r0r0r0r0r0r0r0r0r0r0r0r0r0r0r0r0r0r0r0r0r0r0r0r0r0r0r0r0r0r0r0r",
     "0r0r0r0r0r0r0r0r0r0r0r0r0r0r0r0r0r0r0r0r0r0r0r0r0r0r0r0r0r0r0r0r0r0r0r0r0r0r0r0r0r0r0r0r",
     "0r0r0r0r0r0r0r0r0r0r0r0r0r0r0r0r0r0r0r0r0r0r0r0r0r0r0r0r0r0r0r0r0r0r0r0r0r0r0r0r0r0r0r0r",
     "0r0r0r0r0r0r0r0r0r0r0r0r0r0r0r0r0r0r0r0r0r0r0r0r0r0r0r0r0r0r0r0r0r0r0r0r0r0r0r0r0r0r0r0r",
     "0r0r0r0r0r0r0r0r0r0r0r0r0r0r0r0r0r0r0r0r0r0r0r0r0r0r0r0r0r0r0r0r0r0r0r0r0r0r0r0r0r0r0r0r",
     "0r0r0r0r0r0r0r0r0r0r0r0r0r0r0r0r0r0r0r0r0r0r0r0r0r0r0r0r0r0r0r0r0r0r0r0r0r0r0r0r0r0r0r0r",
     "0r0r0r0r0r0r0r0r0r0r0r0r0r0r0r0r0r0r0r0r0r0r0r0r0r0r0r0r0r0r0r0r0r0r0r0r0r0r0r0r0r0r0r0r",
     "0r0r0r0r0r0r0r0r0r0r0r0r0r0r0r0r0r0r0r0r0r0r0r0r0r0r0r0r0r0r0r0r0r0r0r0r0r0r0r0r0r0r0r0r",
     "0r0r0r0r0"]⟩,
  ⟨["lvt"],
    ["BVB5q1q1q1q1q1q1q1q1q1q1q1q1q1q1q1q1q1q1q1q1q1q1q1q1q1q1q1q1q1q1q1q1q1q1q1q1q1q1q1q1q1q1",
     "q1q1q1q1q1q1q1q1q1q1q1q1q1q1q1q1q1q1q1q1q1q1q1q1q1q1q1q1q1q1q1q1q1q1q1q1q1q1q1q1q1q1q1q1",
     "q1q1q1q1q1q1q1q1q1q1q1q1q1q1q1q1q1q1q1q1q1q1q1q1q1q1q1q1q1q1q1q1q1q1q1q1q1q1q1q1q1q1q1q1",
     "q1q1q1q1q1q1q1q1q1q1q1q1q1q1q1q1q1q1q1q1q1q1q1q1q1q1q1q1q1q1q1q1q1q1q1q1q1q1q1q1q1q1q1q1",
     "q1q1q1q1q1q1q1q1q1q1q1q1q1q1q1q1q1q1q1q1q1q1q1q1q1q1q1q1q1q1q1q1q1q1q1q1q1q1q1q1q1q1q1q1",
     "q1q1q1q1q1q1q1q1q1q1q1q1q1q1q1q1q1q1q1q1q1q1q1q1q1q1q1q1q1q1q1q1q1q1q1q1q1q1q1q1q1q1q1q1",
     "q1q1q1q1q1q1q1q1q1q1q1q1q1q1q1q1q1q1q1q1q1q1q1q1q1q1q1q1q1q1q1q1q1q1q1q1q1q1q1q1q1q1q1q1",
     "q1q1q1q1q1q1q1q1q1q1q1q1q1q1q1q1q1q1q1q1q1q1q1q1q1q1q1q1q1q1q1q1q1q1q1q1q1q1q1q1q1q1q1q1",
     "q1q1q1q1q1q1q1q1q1q1q1q1q1q1q1q1q1q1q1q1q1q1q1q1q1q1q1q1q1q1q1q1q1q1q1q1q1q1q1q1q1q1q1q1",
     "q1q1q1q1q"]⟩,
  ⟨["prepend", "pp"], ["BQo5Fz0Bd0Ko1C80BFf0CSYu0f0Gs1Ol0BMl010Gw0C15Tg0Mb0"]⟩,
  ⟨["regionalindicator", "ri"], ["FGEmp"]⟩,
  ⟨["spacingmark", "sm"],
    ["CM30Bj0228311Be1Bn16121Bi0Bm2Bu0Bm28011Bh1Bo06121D60113212Bg2Bp3Bp1Bm02011Ba0e1Bn15212Bh",
     "1C4166j1Br0Dj0Du1Br0Ex091p1B80BZ507711Jm3224115G81Bm010l5E10Bl3Bs0u041Br02210Bh781Er0l0B",
     "MBn120Cg1BefDy0Bc0Bc14121D3121o0Ed02150Gl1111110BBJn010Dj0B9241D70o1Bn0Bc290e0Cl231Es2v1",
     "Bn0132121l1Cd1f011Cv28130Cz160111020Gm16320D528110D1011D2070H9290Gw4117010Dy28340Cc0t1Bq",
     "0Lb0e0Cy07020Fx44110Jq1c0Bc181SAq2DWkBi"]⟩,
  ⟨["t"], ["EVkCfCCCjBc"]⟩,
  ⟨["v"], ["ETkBzCCE8mBOXw033"]⟩,
  ⟨["zwj"], ["ITx0"]⟩]

/-- The word break classes. -/
def wordBreakRows : List Row := [
  ⟨["aletter", "le"],
    ["Btp6pBb0a0405m1u1Nb6xD441123106012101j1Ca1Du8El1B123101B410Cw0B8B6z11Cq10f171a220f11ttCg",
     "b0ow91405l409030no7a5n15hB5BmBh30i079ff47212l16103330g0d112e1a085412l16111111v310j2g8121",
     "l16111430i0f1n0b7212l16111430u112f0h015321331101131323bm0Bg7121m1f30q22021u047121m191430",
     "v111f1h8121B420g05282o55h3n181026Ip0Br71zr4HnB110502B61J8132610132B4132w132610132e1Bk132",
     "BuB1fgCd253R72g1p5C23a7hdiehec12EvCg742x105BxauG9mGmBah7Bitd1aB7qzB52az2a5B622B531511305",
     "FbBsHp252B125271010101u2Bg1610321633254c5216D80d0gcCt040291034601010131a235440hB4WlBfBYe",
     "Gc6331cB110502Bj70gm9616161616161616C80N10Bh1FkB61ClhvBEE0BGcBvB92Hg3fa1kBagu2C7oFh21101",
     "7lf12131mtBfeBdBq53011bramps7Bas0BcB4n217E4a72c5252596161Bl6D6tLYbcm4BcJP06c4BkCpxK2iBr2",
     "BhB4bD841DqB0p6pBxu35252522zb1p1i111e2dyDeBxBgHfs3BcBbvdt5B1at2z4714B6Ediz4z4B38Bfca1e16",
     "111a1e16113BfcIm9la7o51B518Bx5201B711302mam9uBti11alapByBj61Bs0f3121sB6s3sz71rrBhalaidhD",
     "2C0BjBedBedzB2r9mGyB561g2Bnsa08lB6hBakrmcBgBl120dB8woqzt0208y30cBbe3l010zh1oj1Br610131e1",
     "97BaB27212l16111430i0c4u910201B110p010B8Bgi3k2uBbk110F4BaB53B0Bbk0BnB6d0J3B7D8Brv7202711",
     "1nf010Cm72B2g010s0aB370l0bB9j0iC0Fjwv81B0h0BdtD46111B1l0p5111ve0J3if01c1xDg0C7ZlCuD2hFfC",
     "V8CofBDrh5pEGy5Q6HI1tBWyPs7uhC6htiBbg3vk5iM0B8FvBrDkC250BucBs110UV8Cy5c3879GKeCc1By11202",
     "1231b10161Bs1327161r131410361Jf2o1o1u1o1u1o1u1o1u1o17BZ8u65H9BpE2B8a6g0IxtiB7NgrGct20Nr6",
     "13111e1FgBnBv70BHg31q1110201913101060401010121110201010101011102316131310191g52141gRgp6p",
     "6p"]⟩,
  ⟨["cr"], ["d0"]⟩,
  ⟨["doublequote", "dq"], ["y0"]⟩,
  ⟨["extend"],
    ["VcD3Hn6HbB810111110C0aBckg0Ct6252113z0uqCjaBm890o3181214B72Bn8B6n1wBi21h16a1t2Bk01621229",
     "0a1q022Bk014412230u130b2Bk0171212k1m512Bk016212272a1u0Bn4321390B44Bj016121371b1t2Bk01612",
     "1371b1f0c3Bj116121390a1t2By0451017i1Bp026c7Cq028b6C11r0101041Bdj115a1z90Csjn342122633db1",
     "0a3Tj2BAa3s2t1u1Bsv90B9210D91y0Dab4bG34Bl91s20BcuBd4BbgB28c2ucBkdBcjE821k406022FiBrOk0Ff",
     "wDHa2Dx0CovPe5Cx1BGFw319w1C81Hk03040n440Cb1Behqhd0B27pcB83BbdB00Bvdc081B92Be012215110B54",
     "51Gk711VR40UhfgfK61Qt0Ga0E54BUe21153B4240El1Px3Bt4It1C73ByaBd3De2BheB5021a3B9a70Bp2B0dg1",
     "B80c2Bcd8311Ckb6020Edbl3Bj116212290a12634Bv81020131410e1Cahn0C9jGj628r1CagCycCteH4eGt511",
     "231011Dx62630s9B4613809aBafL9717Cal1dDe530111610Bu41114Jn39110Bc634n0FSl06eMGghCRc4Bn6BD",
     "401Bi73C90b1UZ71FApB92mP24358726u3E42CCzBi4Bd80e0m41eBLs61g261114Cs0Eg6Kf0Bp3O43H21Ug6D1",
     "6CY04BGLNkCnDkGn"]⟩,
  ⟨["extendnumlet", "ex"], ["Cn0IS70f1j0CIRq1o2Gn0"]⟩,
  ⟨["format", "fo"], ["Et0BMm0EXl0CEv1q4Bd419CIWn0Gx2OH8fBLHs3FRz7BGUY60"]⟩,
  ⟨["hebrewletter", "hl"], ["BPcq43CPBe0191c1410111119"]⟩,
  ⟨["katakana", "ka"], ["NEp4Ct13Ci13GofFsBa1CfCDV2BjBWFu3161110Hz2Be0e3"]⟩,
  ⟨["lf"], ["a0"]⟩,
  ⟨["midletter", "ml"], ["Bm0Dg0Tz0N30E40HEa0CIS30Bt0Fg0"]⟩,
  ⟨["midnum", "mn"], ["B80e0X60Oi0Dm1Cm0Kz0GQr0CISz030F30e0"]⟩,
  ⟨["midnumlet", "mb"], ["Ba0ISx1a0CITx0F0060"]⟩,
  ⟨["newline", "nl"], ["b1Dc0IQy1"]⟩,
  ⟨["numeric", "nu"],
    ["Bc9BP25Ci910D50i9Fi9Fi1C80Dn9Da9Da9Da9Da9Da9Da9Da9Da9Da9Co9Da9By9Hq9By9BZq9B29Ic9DkaEl96",
     "9F29Ce9Dq969BLRq9Su9B29Fi9m9Ce9La9WSu9BNa9CIm969W49C50f0y9Bo9E09Hq9Ji9Da9Ke9Cu96jC49Lq9C",
     "u9Se9Ce9Gu9By9Lq9SA69CN29Ce9Dq9Ou9BACu9CZ0BdCNs9Lq9Ny9Gv9Xp9FC69"]⟩,
  ⟨["regionalindicator", "ri"], ["FGEmp"]⟩,
  ⟨["singlequote", "sq"], ["B30"]⟩,
  ⟨["wsegspace"], ["w0GD30CPj612Cc0EH40"]⟩,
  ⟨["zwj"], ["ITx0"]⟩]

/-- The sentence break classes. -/
def sentenceRows : List Row := [
  ⟨["aterm", "at"], ["Ba0IT90CITx0F70"]⟩,
  ⟨["close", "cl"],
    ["y042Bd010t010B90f0DZ23CAd1CPf7p1a1Bi1e1Rl3t1BDs57dC71v9L7lBr3w1BCide129o0i7Lv92712CECm1F",
     "z1sf21g5Ep1Bd010t0101111CPOy2"]⟩,
  ⟨["cr"], ["d0"]⟩,
  ⟨["extend", "ex"],
    ["VcD3Hn6HbB810111110C0aBckg0Ct6252113z0uqCjaBm890o3181214B72Bn8B6n1wBi21h16a1t2Bk01621229",
     "0a1q022Bk014412230u130b2Bk0171212k1m512Bk016212272a1u0Bn4321390B44Bj016121371b1t2Bk01612",
     "1371b1f0c3Bj116121390a1t2By0451017i1Bp026c7Cq028b6C11r0101041Bdj115a1z90Csjn342122633db1",
     "0a3Tj2BAa3s2t1u1Bsv90B9210D91y0Dab4bG34Bl91s20BcuBd4BbgB28c2ucBkdBcjE821k406022FiBrOk1Fe",
     "wDHa2Dx0CovPe5Cx1BGFw319w1C81Hk03040n440Cb1Behqhd0B27pcB83BbdB00Bvdc081B92Be012215110B54",
     "51Gk711VR40UhfgfK61Qt0Ga0E54BUe21153B4240El1Px3Bt4It1C73ByaBd3De2BheB5021a3B9a70Bp2B0dg1",
     "B80c2Bcd8311Ckb6020Edbl3Bj116212290a12634Bv81020131410e1Cahn0C9jGj628r1CagCycCteH4eGt511",
     "231011Dx62630s9B4613809aBafL9717Cal1dDe530111610Bu41114Jn39110Bc634n0FSl06eMGghCRc4Bn6BD",
     "401Bi73C90b1UZ71FApB92mP24358726u3E42CCzBi4Bd80e0m41eBLs61g261114Cs0Eg6Kf0Bp3O43H21Ug6D1",
     "6BGOLpCnDkGn"]⟩,
  ⟨["format", "fo"], ["Et0BMm0Gq0EQu0CEs021q4Bd419CIWn0Gx2OH8fBLHs3FRz7BGUY60"]⟩,
  ⟨["lf"], ["a0"]⟩,
  ⟨["lower", "lo"],
    ["CppBb0a040B0n171010101010101010101010101010101010101010101010101010101110101010101010111",
     "0101010101010101010101010101010101010101010102010122010203140203220201010201110203010212",
     "2602020101010101010101110101010101010101120103010101010101010101010101010101010101010101",
     "01010101010101016202110401010101Bw1z71u4Dw0103023i0ry1132101010101010101010101014102021B",
     "fBb1010101010101010101010101010101010901010101010101010101010101010101010101010101010101",
     "0102010101010101110101010101010101010101010101010101010101010101010101010101010101010101",
     "0101010101010101010101010BcB4DDf0V75CIi810D9FbBt0101010101010101010101010101010101010101",
     "0101010101010101010101010101010101010101010101010101010101010101010101010101010101010101",
     "0101010101010101010181010101010101010101010101010101010101010101010101010101010101010101",
     "010101010101010101010101010101885a78785a7878d2787878411603211832187a211Dd0d0gcD103130r04",
     "040218340xf40XfpBZqBb1031101010401117301010101010101010101010101010101010101010101010101",
     "0101010101010101010101010101010101010101010101011701040cB11050BHCz0101010101010101010101",
     "01010101010101010101010j010101010101010101010101012Dp01010101010121010101010101010101010",
     "1010101010101010101010101010101010101019101020101010104010201210101010101010101010505010",
     "101010101010401020301010101010m21012WtB61d6C7VRk6c4BDlpBI5B3DszEba1e1611Mj0221B518BJpBeD",
     "hlDBuvXK0vBBUipq61hqpq310161aqpqpqpqpqpqpqpqpqrso15qo15qo15qo15qo1510BZ891j65H9BpCJwx"]⟩,
  ⟨["numeric", "nu"],
    ["Bc9BP25Ci911D40i9Fi9Fi1C80Dn9Da9Da9Da9Da9Da9Da9Da9Da9Da9Co9Da9By9Hq9By9BZq9B29Ic9DkaEl96",
     "9F29Ce9Dq969BLRq9Su9B29Fi9m9Ce9La9WSu9BNa9CIm969W49C50f0y9Bo9E09Hq9Ji9Da9Ke9Cu96jC49Lq9C",
     "u9Se9Ce9Gu9By9Lq9SA69CN29Ce9Dq9Ou9BACu9CZ0BdCNs9Lq9Ny9Gv9Xp9FC69"]⟩,
  ⟨["oletter", "le"],
    ["Mb043Fs0B066bq010Dp0Ng0Daq44B8B6z11Cq10f171a220g01ttCgb0ow91405l409030no7a5n15hB5BmBh30i",
     "079ff47212l16103330g0d112e1a085412l16111111v310j2g8121l16111430i0f1n0b7212l16111430u112f",
     "0h015321331101131323bm0Bg7121m1f30q22021u047121m191430v111f1h8121B420g05282o55h3n181026B",
     "mBb11c6Bm110141n101911902410l3w0Br71zr4D7B6k0g5433031724cc0BtB62J7132610132B4132w1326101",
     "32e1Bk132BuB1fD5R72g1p5C23a7hdiehec12fBfz040BvCg742x105BxauBdt24bB74pBim9BgCa0ClBah7Bitd",
     "1aB7qzB52aziB622B53151130BE23Bz223DEvBj70gm9616161616161616C80N12p874244Cd621Ch135B61Clh",
     "vBcfO8HB3BsXRgBvB92Hg3fa1Bu0g0wC7B38Cw060Cv03612131mtBfeBdBq53011bramps7Bas0g419a41B4n21",
     "7km303Bd1031242010o22a72c525259616E1ytLYbcm4BcJAsK52CxBv0191c141011111CzxK2iBr2BhB4bD841",
     "DqCxBj2u35252522zb1p1i111e2dyDeBxBgHfs3BcBbvdt5B1at2z4714DeC5CqB38BfCkBfcIm9la7p1Dh5201B",
     "711302mam9uBti11alapByBj61Bs0f3121sB6s3sz71rrBhalaidhD2C0F3zB25v0HkB561g2Bnsa08lB6hBakrm",
     "cBgBl120dB8woqzt0208y30cBbe3l010zh1oj1Br610131e197BaB27212l16111430i0c4u910201B110p010B8",
     "Bgi3k2uBbk110F4BaB53B0Bbk0BnB6d0BzqB16F5B7Fv72027111nf010Cm72B2g010s0aB370l0bB9j0iC0Fjwv",
     "81B0h0BdtD46111B1l0p5111ve0J3if01c1xDg0C7ZlCuD2hFfCV8CofBDrh5pEGy5Q6HI1tBWyPs7uhC6htiBbg",
     "3vk5iM0B8L7C250BucBs110sGOf8BIdB59JO7316111I2f0t220e38KzCM4Cy5c3879JKw0NxB8a6g0IxtiB7Ngr",
     "Gct20Nr613111e1FgDq0BHg31q1110201913101060401010121110201010101011102316131310191g52141g",
     "ESsBTQnwELd6G52GE1eHZkfR9CQiP1BPuFH65EMf"]⟩,
  ⟨["scontinue", "sc"], ["B81c1X60Na0Eu1Nm0EK1050CF61EJ80CEJa111s1t12120a0Eo1c1C00"]⟩,
  ⟨["sep", "se"], ["Dp0IQy1"]⟩,
  ⟨["sp"], ["9011j0Dj0FZj0CPjaB00Bb0EH40"]⟩,
  ⟨["sterm", "st"],
    ["x0t0BLl0E32F00B72Gu0Bp01031I51BX01Vy041Vh0Fi1Ed1B9050Iq1Ju3Ei1a121t2F71Bt1BAk192DM72Ii0d",
     "0m1Lx0BFZw0Hi1Gb030Km1Ce1Cn0E81E32E01Gx0WM6021Br1Ep0t0Bt0CZw1BJh4B83F91D93Dj2Dl160g1Cg11",
     "1D00Ia1D91Kd15eCx1Gx2Od010Gz1Cf1Lo1T81C21UOh1Dp0Bt1b0Pd1I80VIu0IEo0"]⟩,
  ⟨["upper", "up"],
    ["BtpCtm16x0101010101010101010101010101010101010101010101010101010201010101010101020101010",
     "1010101010101010101010101010101010101011101031101112231112311110101110201112101130711111",
     "1010101010101010201010101010101010211012101010101010101010101010101010101010101010101010",
     "10101010107111201310101010I10103080601210111g18z0223010101010101010101010105020112BeBc01",
     "0101010101010101010101010101010901010101010101010101010101010101010101010101010101010111",
     "0101010101020101010101010101010101010101010101010101010101010101010101010101010101010101",
     "01010101010101010102B1DC9B11050U2CdCIz0Ke01010101010101010101010101010101010101010101010",
     "1010101010101010101010101010101010101010101010101010101010101010101010101010101010101010",
     "1010101010101090101010101010101010101010101010101010101010101010101010101010101010101010",
     "1010101010101010101010109785a78785b010101087o7878784b4b3c4b4H9040322220346010101323a150q",
     "fj0WqpBZ4BbBc012201010131020821010101010101010101010101010101010101010101010101010101010",
     "1010101010101010101010101010101010101010801040BHEl01010101010101010101010101010101010101",
     "0101010j010101010101010101010101010Dr010101010101030101010101010101010101010101010101010",
     "101010101010101010101010a010111010101040102010301010101010101010101414101010101010101310",
     "113050101010o0XVvpBHxB3DszEca1e1611BX6BeEdlDBuvXK0vBBUopqpqpq01120212317qpq1132716r11314",
     "1036rpqpqpqpqpqpuoxoxoxoxox0ESdxCFap6p6p"]⟩]

end PatternGate.Unicode
