import PatternGate.Unicode.RangeCode

/-!
# Binary properties

Properties that a code point has or has not, each with its names and its set. The set of word
characters joins alphabetic characters, marks, decimal digits, connector punctuation and the two
joiners.
-/

namespace PatternGate.Unicode

/-- The binary properties, each with its names and its set. -/
def binaryRows : List Row := [
  ⟨["alphabetic", "alpha"],
    ["Btp6pBb0a0405m1u1Mp4be47010Ce0th1123106012101j1Ca1Du8El1B1206B4B3d101111108q43ta5Bj16eCt",
     "174742a220gBbdCsow91405n2ijo7a5n15808B5ab366C31f124edi17212l16103337212110804114c1a04215",
     "412l16111111444121407310h5b218121l16111438121130f3l34217212l161114372121914114d0g1153213",
     "31101131323b4432123060B4c121m1f37121281122023s317121m1914371212816113d2cc121B42712121053",
     "74m5121h3n181026851017i1dBl5660Bf110141n101i12241060e3w0Br71z4i4f1zBvBi1024gBra32B110502",
     "B61J8132610132B4132w132610132e1Bk132BuB1fgCd253R72g1p5C23a7jbkcjcc1211cBf2ie040BvCg7B65B",
     "xau1b48nt24bB74pBir4Bq2jBe0n1b2BdBf1e17BfB523aB71aeBim2az2a5B622B531511305FbjxbHp252B125",
     "271010101u2Bg1610321633254c5216D80d0gcCt040291034601010131a235440hB4WlBfBYeGc6331cB11050",
     "2Bj70gm96161616161616161vBb0N12p874244Cd621Ch135B61ClhvBcfO8HB3BsXRgBvB92Hg3fa1kBa573D4B",
     "382Cu2Bu211017lj1woBfcBv10B853012aw5yds3Be1bf0gfa41Bi9dim3Bw1010o22f23b5252596161B61d6De",
     "lLYbcm4BcJAsK52CxB26c45b1c141011111CzxK2iBr2BhB4bD841DqB0p6pbCg35252522zb1p1i111e2dyDeBx",
     "BgHfs3BcBbvdt5B65t2z4714B6Ediz4z4B38Bfca1e16111a1e16113BfcIm9la7o51B518Bx5201B711302mam9",
     "uBti11alapByBj61Bs31157121sB6s3sz71rrBhalaidhD2C0BjBedBedB3yr305mGyB51131g2Bj03sa08lB6hB",
     "akrm9BxB74aBk90donBeh38y309Br1391a010zh1x2063Bq610131e197Bkn317212l161114372121306056s91",
     "0201B119102013113010B8Bt1213k2uBt2110F4Bh26p5yBq1030BnBh20Bzq2dl6F5BkCvBrv72027111t11212",
     "3Cl72B9251011rBe29hBz50iC0Fjwv81B81610Bdt2l1dC16111B73011121021o5111B0111310J3m9g1B432D3",
     "0C7ZlCuD2hFfCV8CofBDrh5pEGy5Q6HI1BaBWhPs7uhC6htiBbg3vk5iM0B8FvBrDkC24Bk7gBs110c1eGOf8BId",
     "B59JO7316111I2f0t220e38KzCM4Cy5c387940GK9Cc1By112021231b10161Bs1327161r131410361Jf2o1o1u",
     "1o1u1o1u1o1u1o17BZ8u65Fx61g2611145Bpx0D4B8a6g0IxtiB7NgrGct20Nr613111e1FgBnBv3030BHg31q11",
     "10201913101060401010121110201010101011102316131310191g52141gRgp6p6pDYuBTQnwELd6G52GE1eHZ",
     "kfR9CQiP1BPuFH65EMf"]⟩,
  ⟨["asciihexdigit", "ahex"], ["Bc975q5"]⟩,
  ⟨["bidicontrol", "bidic"], ["BRg0HCh1q4Bj3"]⟩,
  ⟨["bidimirrored", "bidim"],
    ["B41i010s010t010B90f0DZ23CAd1CQc1a1Bi1e1Ex0Fc33530313313101048501h539110171v2350912i51942",
     "14n2f83k171BE5dC2023111253523dL7l251d807530441124401221a521ci13201020135162o1b14311214B6",
     "271B350103452403410H40Ob33111e129B77Lv927CEKl551Ei1i010s010t0101111CGY70Bl0Bl0Bl0Bl0"]⟩,
  ⟨["cased"],
    ["Btp6pBb0a0405m1u1Fe134Fr1z71u4Co0B632123106012101j1Ca1Du8El1B19B4DAvB110502B613SoCd25CIi",
     "a5B622BsFbBsHp252B125271010101u2Bg1610321633254c5216D80d0gcCt040291034601010131540235440",
     "hv31WpBfBYeGc6331cB11050BHCyB9itDoCt331Bp211017l412WtB61d6C7VRk6c4BCpp6pBH1C7Coz4zD8a1e1",
     "6111a1e1611Mj0221B518BHxBedBeCllalDAyBrXJ4BrBBTsCc1By112021231b10161Bs1327161r131410361J",
     "f2o1o1u1o1u1o1u1o1u1o17BZ891j65H9BpCIyBvCEcp6p6p"]⟩,
  ⟨["caseignorable", "ci"],
    ["B3060b0z010Bz040104021NzFb41409110Gz6Fr050BdB810111110B80b5aa10z0akg0Ct71913x010uqCjaBma",
     "4020onB72B807158B5BlBj010474036a1d0f0Bm04380k1q021Bl041412230u130b1Bl0441140k1m510Bm0201",
     "38071b1u0Bp0c0Be030Bj012521371b1t0Bm0206051k1s1Bl14380k1t0C007210Ci026b8Cq0289016C11r010",
     "10Bjd14115a1z90Cu3151121p142g3d02160f0Cm0Qw2BAa2t1u1u1Bs116802a3050B94Bf0Bt1y0Da2419062G",
     "3120Bm0161010276920B308uBd3Bc0141050B48c1w32112Bk0113012Bm721Bs5Ca21c16406031BeBqd0yCsMd",
     "012b2d2d2d1c481a02024Bd41910d0gcBfwDE31D52Dh0f0CovBb0N10B033450Cl5Cl2BEJy0BIq5Hi0Cq31910",
     "s3C81exC60n2Cv231803040p150E71qhd0B27paBa2Bc02321h0l1Bu52121c080z0b0Bf012215110r0e15110C",
     "s492Dd02040VR40E3gPxf30cfy020Ep07060b0z010Bb0B91Bv0l2O90Ga0E54BCl51B518Q621153B4240El1Px",
     "3B20q410Ir1C73ByaBd3Df0BieB5021a2Bd3212040a0Be2B0417Bq0c1Bg8a320Cn220116020Ed037l1Bl130B",
     "1634By5d01010e1Cd72210n0Cc5104111Gm36111r1Cd72011Cy0102510Ct0102314H7811H411040E032140w9",
     "B4523809522Bac11La61510Cal261111De530111610C013010Jn1b1Bg45010n0FS5g6eMGgb32CRc4Bn693O42",
     "B41Ne0BrgBs111RNf31611DLq113FAkB92mP429f26u3E42CCzBi4Bd80e0m41eBLs61g2611145Bpx0EgdK80Bp",
     "3O34H21Ug6D17CXz4BGLMp0uCnDkGn"]⟩,
  ⟨["changeswhencasefolded", "cwcf"],
    ["BtpCi0am17w01010101010101010101010101010101010101010101010101010102010101010101010111010",
     "1010101010101010101010101010101010101010111010101110111223111231111010111020111210113071",
     "1111101010101010101020101010101010101021101210101010101010101010101010101010101010101010",
     "101010101010107111201310101010Gu0B60103080601210111g18m0c2311010101010101010101010101121",
     "10112BeBc0101010101010101010101010101010109010101010101010101010101010101010101010101010",
     "1010101011101010101010201010101010101010101010101010101010101010101010101010101010101010",
     "1010101010101010101010101010102B1Bc0DAwB11050Wi5CIi96B622Iw01010101010101010101010101010",
     "1010101010101010101010101010101010101010101010101010101010101010101010101010101010101010",
     "1010101010101010101010101010101051201010101010101010101010101010101010101010101010101010",
     "101010101010101010101010101010101010101010109785a78785b010101087gBb22255225b3c45225I9031",
     "60B9fj0WqpBZ4BbBc01220101013102082101010101010101010101010101010101010101010101010101010",
     "10101010101010101010101010101010101010101010801040BHEl0101010101010101010101010101010101",
     "01010101010j010101010101010101010101010Dr01010101010103010101010101010101010101010101010",
     "1010101010101010101010101010a01011101010104010201030101010101010101010141410101010101010",
     "1310113050101010o0YqC7VRk6c4BCppBHxB3DszEca1e1611BX6BeEdlDBuvXK0vBHO0x"]⟩,
  ⟨["changeswhencasemapped", "cwcm"],
    ["Btp6pBm0am1u1Br1Cb1r2d21104Ck1h6q1110113113142011207020113550a1Em0B632132106012101j1Ba3w",
     "141Do8El1B1aB2DAwB110502B622SoCd25CIia5B622F5030g0D5Eb201D9252B125271010101u2Bg161032163",
     "3254c5216I903160r0hv31WpBfBYeD411117Ct7331cB11050BHCyB9irDqd2Bp9e32241o1t2146o1Xw0sC7VRk",
     "6c4BCpp6pBH1C7Coz4zD8a1e16111a1e1611BW3BedBeCllalDAyBrXJ4BrBHN4Bv"]⟩,
  ⟨["changeswhenlowercased", "cwl"],
    ["BtpCtm16x0101010101010101010101010101010101010101010101010101010201010101010101020101010",
     "1010101010101010101010101010101010101011101031101112231112311110101110201112101130711111",
     "1010101010101010201010101010101010211012101010101010101010101010101010101010101010101010",
     "10101010107111201310101010I10103080601210111g18z08010101010101010101010105020112BeBc0101",
     "0101010101010101010101010101090101010101010101010101010101010101010101010101010101011101",
     "0101010102010101010101010101010101010101010101010101010101010101010101010101010101010101",
     "010101010101010102B1DC9B11050U2CdCIz06B622Iw01010101010101010101010101010101010101010101",
     "0101010101010101010101010101010101010101010101010101010101010101010101010101010101010101",
     "0101010101010101090101010101010101010101010101010101010101010101010101010101010101010101",
     "0101010101010101010101010109785a78785b010101087o7878784b4b3c4b4I903160B9fj0WqpBZ4BbBc012",
     "2010101310208210101010101010101010101010101010101010101010101010101010101010101010101010",
     "101010101010101010101010801040BHEl010101010101010101010101010101010101010101010j01010101",
     "0101010101010101010Dr0101010101010301010101010101010101010101010101010101010101010101010",
     "10101010a010111010101040102010301010101010101010101414101010101010101310113050101010o0XV",
     "vpBHxB3DszEca1e1611BX6BeEdlDBuvXK0vBHO0x"]⟩,
  ⟨["changeswhentitlecased", "cwt"],
    ["CppBm0B5n1710101010101010101010101010101010101010101010101010101010201010101010101110101",
     "0101010101010101010101010101010101010101020101220102030502032202010102040203010203010401",
     "1111010101010101010111010101010101010121010301010101010101010101010101010101010101030101",
     "010101010101080211040101010151110113113142011207020113550a1Em0B70103032i0ry1132101010101",
     "010101010101014102020BgBb101010101010101010101010101010101090101010101010101010101010101",
     "0101010101010101010101010201010101010111010101010101010101010101010101010101010101010101",
     "01010101010101010101010101010101010101010101010BdB2DYo5CIi810Gm030g0D6010101010101010101",
     "0101010101010101010101010101010101010101010101010101010101010101010101010101010101010101",
     "0101010101010101010101010101010101010101016501010101010101010101010101010101010101010101",
     "01010101010101010101010101010101010101010101010101885a78785a7878d2787878411603211832187a",
     "211Ji0xf40XfpBZqBb10311010106020a0101010101010101010101010101010101010101010101010101010",
     "10101010101010101010101010101010101010101010801040cB11050BHCz010101010101010101010101010",
     "101010101010101010j010101010101010101010101010Dr0101010101010301010101010101010101010101",
     "01010101010101010101010101010101010a010201010101040401120101010101010101010b010101010101",
     "01040102030501010q0Xw0sC7VRk6c4BDlpBI5B3DszEba1e1611BXvBeDhlDBuvXK0vBHO2x"]⟩,
  ⟨["changeswhenuppercased", "cwu"],
    ["CppBm0B5n1710101010101010101010101010101010101010101010101010101010201010101010101110101",
     "0101010101010101010101010101010101010101020101220102030502032202010102040203010203010511",
     "1111010101010101011101010101010101011111030101010101010101010101010101010101010103010101",
     "0101010101080211040101010151110113113142011207020113550a1Em0B70103032i0ry113210101010101",
     "0101010101014102020BgBb10101010101010101010101010101010109010101010101010101010101010101",
     "0101010101010101010101020101010101011101010101010101010101010101010101010101010101010101",
     "010101010101010101010101010101010101010101010BdB2DC8B622V45CIi810Gm030g0D601010101010101",
     "0101010101010101010101010101010101010101010101010101010101010101010101010101010101010101",
     "0101010101010101010101010101010101010101010101650101010101010101010101010101010101010101",
     "010101010101010101010101010101010101010101010101010101885a78785a7878d2Bg1140103211403321",
     "87a21140Jd0xf40XfpBZqBb10311010106020a01010101010101010101010101010101010101010101010101",
     "0101010101010101010101010101010101010101010101010801040cB11050BHCz0101010101010101010101",
     "01010101010101010101010j010101010101010101010101010Dr01010101010103010101010101010101010",
     "1010101010101010101010101010101010101010a010201010101040401120101010101010101010b0101010",
     "1010101040102030501010q0Xw0sC7VRk6c4BDlpBI5B3DszEba1e1611BXvBeDhlDBuvXK0vBHO2x"]⟩,
  ⟨["dash"], ["B90BM40Bf0DXd0BCl0CF55Bp0B30f0Ku0DHg020v140s0Me0j0D30CEFs1B10a0Ep0DY80Iu0"]⟩,
  ⟨["defaultignorablecodepoint", "di"],
    ["Et0Sp0Tw0DC21BSz1Cd4CEr4q4BdfEQk0CDYzfGn0Eg0C78BZPj3FRz7BGUY5EJr"]⟩,
  ⟨["deprecated", "dep"], ["J50BKp0CM3010CG11CKd5Td1BLIQ60"]⟩,
  ⟨["diacritic", "dia"],
    ["Cm010Bz0604021NzEe1755h14091H14Ft0Bjg1q101110Dq741Dq14132BvqCjaBmay1Di7B59grBp0g033s0C20",
     "g0D20g0D20g0Bb2Bo0g070Db0D20g0D20g0D11g0Dg0D30c510Cz0d4C31r0101041Bu211Bq0D4011B4144p610",
     "a1Tl2BAc1u0E4a90Jn2I40k720Bce2aCw0f0B28Bi1Bm0b1Bu1Bs5Cao406022BeBqBcz5bB1aMd012b2d2d2d1D",
     "O02It0O25Cx3Cn0BGD60c110s1Ca1exCu2D11c0B10E70rhBl3B00Cn0c0B00E52Bt3Bf0Cs492Dk1VR40VdfHi0",
     "10Bb0B91Bv0V80BGv51B518Rp240El1Pv5B20q4L32ByaBd3Fc0B50C01Dc1Bq0C4092Cw1Ey1C81g0o634Ch211",
     "d1Cn030Df1Gz1Di0Da1D70Hh1H6140Ec0Cb0i0C90Lp0H6011C90Lt1n0FSseMGx0CRc4Bn6Po1P6gC81RN23161",
     "1IMhB92mP42358726u3DZ6BpFe6Kf0Bp3Va1Ug6D1212"]⟩,
  ⟨["emoji"],
    ["z06059D3040IQd0c0G00m0Ci5f1K71c0Em0pa42Fj0Gf1a090Bm314902021204020112030318250105bb12011",
     "10i021i5101131502141b15120511011k155132040202510201010603060a1f02040104210b1Bc290e0e0Kc1",
     "Mv2j1Bf040BIi0c0Qp010ERVe0Fm0Eg1c1e029C3p11n0k028l1Eux2D321122Ca221Ha1Bqb51n7127c0232041",
     "d120819052c28220104060306CdBcBx57224930113029Gbb40HvBa191F4D4c395Bj7e2a68"]⟩,
  ⟨["emojicomponent", "ecomp"], ["z06059ISb0Fx0CIMr0CORypO34BOg3BGJZ0Cn"]⟩,
  ⟨["emojimodifier", "emod"], ["FGTf4"]⟩,
  ⟨["emojimodifierbase", "ebase"],
    ["KL10G30g3EVYf0Bo22022D912ali3042127010o0Fl140l041Eu234Cb0g290b0Pz02087609922Bk0Bp11110h2",
     "1cGd2B68"]⟩,
  ⟨["emojipresentation", "epres"],
    ["JPm1Fp33020Oh1l1BebB70j0d081h1518050l0711040207041s0z0104210Bp2o0e0Xv1Bf040ETV20Fm0Fa029",
     "C3p10o0k02412l1Euwc81Bx1lcB644cg303By101F62Bqd31ni0q1d0CeCcBcBx60322243b178Gbb40HvBa191F",
     "4D4c395Bj7e2a68"]⟩,
  ⟨["extendedpictographic", "extpict"],
    ["Ep040IQd0c0G00m0Ci5f1K71c0Cn0By0pa42Fj0Gf1a090Bm3151b1D5aD92a1010603060a1f02040104210b4B",
     "9290e0e0Kc1Mv2j1Bf040BIi0c0Qp010ERVaH3d2v0Bo5c1e029iBkrea0k028139M15It8HdBcDjD8bCdB6c3Bk",
     "7a5B47uC9cBa191M8H4BCd"]⟩,
  ⟨["extender", "ext"],
    ["F30Ow1Ye0M90Ri0Dt0Ch0Uw0Dj0CNv0Bk0Qz0L20Bw0FIx0B74Cv1Cl2BEJy0BQe0BAq0m0Dt0D00l1XCr0CFc1B",
     "P70r040BHz0I50D81Nu2BI70WBl1BGs110BFA01BHd0Xo2"]⟩,
  ⟨["graphemebase", "grbase"],
    ["wCmxc1QhD472546101j1G77El1B12Bd22Ba01020209q45h9b01B9lf1Cs8061204v201ttCgb0eB6963n409030",
     "7e1o501a5uhB5BlBi10138312792s1117212l1610333011612110d1124n5015412l1611111142o310792210c",
     "018121l16111433801130f14b708117212l16111430206121f1124hb015321331101131323b5011321230lk6",
     "217121m1f3033j2202149791a121m1914312011o1114912ea121B4201152121142194p211h3n181026916679",
     "22cBb11b78cB1110141n1019119024109923wn2q10101d1zi05024Bd7151cB1B84060212o233f4c11251e1B3",
     "10502Kg132610132B4132w132610132e1Bk132Bu5s3p6Cd252Sk3Cg7hdi319hec12fBf207711b839696a596C",
     "g742x105Bxau43224115703B524bB74p6a3Bk213Bj10901185d9696dCeBba3371s9b2v416Bj102210dBb815e",
     "3Bp5B62ab0d0731512205FbBsHp252B125271010101u2Bg1e1d251i22181a5n7Bcg12q1c3wBrDv4ShmalBYb2",
     "v1Jj315B810502Bj71fm9616161616161616xClyp1CgcFxqBl6f1Cd4Cs5B61Cl1Cd9Bb1BFHo3Bi9JnkBa40av",
     "2C7258Fp211017lf12131o24496Bj8Bvaboc1B18ob0ct6Bb1141211c1a461o1B46121b21710292v1Be103124",
     "2010og27b5252596161Bn4D81113396LYbcm4BcJAsK52CxB26c4501n141011111DggMc2Bh70wfg9my1i13441",
     "Dq4Ec2u352525223616d12b1p1i111e2dyDe524B83Cf1c30BbB8Dns3Bcgq4z9t5B1at1B04dB6Ed296z4z4B38",
     "Bfbb1e16111a1e16113BfcIm9la7o51B518Bx5201B711302m1Bz88Bci115w3q50BsBj4j2Baf3121sa8787Brw",
     "B06b9Bh3s2q5p73c6C8C0BjBedBe7B5c96B18n81Fsu1B53021g2BnB38lb8mh43B2rkm901Bhf64t1120cBc412",
     "113eo799z509h8y12bBf9017411f1jbh1r314511Br610131e1a6Ba12d98117212l161114301013212130c6s9",
     "10201B11011f011301211B3Bj81301k1012uBb11601110202389EmBa1163202qB0Be811023b96cjB61011816",
     "96jsq3011409mF5Ba9020CsCac72027111n1411631299By72B58313r0aB3614790613B9d028dC079F2xe9681",
     "B1e015as3vp07020C36111B1l09965111B041101079Imi239e1z813mCe0fBddZmCuD214bFfCV8CqdBDrh5pEG",
     "y5Q6HI1tc239BW6Ps7u194C8196t70aBb7ea9161k5iM0BlFiCiCtC25BjbcBs3sGOf8BIdB59JO7316111I2f0t",
     "220e38KzCM4Cy5c38792020EFcGx6M3EcD7BoGtaB22Bn52m17t4BolBt30DejcjcCe9oDrCc1By112021231b10",
     "161Bs1327161r131410361Jf2I32PlBj3Be71d16BFou65H9BpE2B8a62941IwtiB74950Mwr49Fyt2a40Nc6131",
     "11e1Fg28BcBv704941VtBvC4BoFe31q1110201913101060401010121110201010101011102316131310191g5",
     "2141gBg1HiB74Crce2e1e1B0aEtBksdB74871e5EaBBb4g3c3Da4Cm6b40fb4Bj896B38t2b41BqJfcd2c395Bj7",
     "e2a687E21CtBCmBTQnwELd6G52GE1eHZkfR9CQiP1BPuFH65EMf"]⟩,
  ⟨["graphemeextend", "grext"],
    ["VcD3Hn6HbB810111110C0aBckg0Ct6252113z0uqCjaBm890o3181214B72Bn8B6n1vBj010474036a1t0Bm0102",
     "38090a1q021Bl041412230u130b1Bl0441140k1m510Bm011138072a1u0Bn010c090B4030Bj012521371b1t0B",
     "m02110321371b1s1Bl110238090a1t0C0040221080C9026c7Cq028b6C11r01010Bjd14115a1z90Cu3151121p",
     "142g3d02160f0Tj2BAa3s2t1u1Bs116802a90B9210D91y0Da2419062G3120Bm0161010276920BcuBd3Bc942B",
     "28c1w325Bk0113014Bk721E821c16406031FiBrOk0FfwDHa2Dx0CovPe5Cx1BGFw319w1C81Hk03040p150E71q",
     "hd0B27pa10B82Bc0232120B00Bv52121c080Bb0Bf012215110B6180Gm02040VR40UhfgfK61Qt0Ga0E54BUe21",
     "153B4240El1Px3Bt4It1C73ByaBd3Df0BieB5021a2Bd32170Bp2B0417Bq0c1Bg8108320Cn2236020Ed037l1B",
     "l11010c090e634Bv0251020124210e1Cd72210n0C902510201111Gj0236111r1Cd72011Cy01027Ct0102314H",
     "7811Gt0a340E032140w9B4523809522Bac11La61510Cal261111De530111610C013010Jn1b1Bg452n0FSl06e",
     "MGgb32CRc4Bn6BD40Br3C90b1UZ71FApB92mP24358726u3E42CCzBi4Bd80e0m41eBLs61g261114Cs0Eg6Kf0B",
     "p3O43H21Ug6D16BGOLpCnDkGn"]⟩,
  ⟨["graphemelink", "grlink"],
    ["CO50Dj0Dj0Dj0Dj0Dj0Dj0Dj0D11g0Dg0D30Dj0Fl0F01BWp1u0Ed0S50Gb0Ct1By1EUr0BHNa0B10E70Dy0D00I",
     "l0Gu0ZUp0BQu0B50e0Bl0Dd1Dv0D80F00Cq0Dk2D50Dj0H00Dj0Da0D80Hh0H71Eh0Cb0i0C90Lp0H81C90Lt1SA",
     "s0"]⟩,
  ⟨["hexdigit", "hex"], ["Bc975q5CRQx975q5"]⟩,
  ⟨["hyphen"], ["B90Dj0BIk0FBf0CF51DVp0Uj0CEEn0Ep0Cf0"]⟩,
  ⟨["idcompatmathcontinue"], ["Ey150IRi03a1eKb040m0EPKy0p0v0p0v0p0v0p0v0p0"]⟩,
  ⟨["idcompatmathstart"], ["JHu040m0EPKy0p0v0p0v0p0v0p0v0p0"]⟩,
  ⟨["idcontinue", "idc"],
    ["Bc97p401pBb0a010205m1u1Mp4be47010hD811231064101j1Ca1Du142El1B1206B48B8101111108q43ta5C14",
     "Ct17291i20gBm2CseBh40202B9ir4a5n158C21Dk291i17212l1610332821238041142ba0102215412l161111",
     "11201441223073107fb218121l16111429121220f329961217212l1611142821227241142910g11532133110",
     "1131323b4432132060e9gc121m1f2812137112202329g317121m19142812137161132912cc121Be121453742",
     "9a5121h3n181026304510176921dBl5e19B3110141n101m2410161923w0n169b01010491z4j1h1z90BlC16C5",
     "2B110502B61J8132610132B4132w132610132e1Bk132Bu2298efgCd253R72g1p5C23a7l9lbjcc1211cCb3041",
     "29x21a6Cg7B65Bxau1b4baB324bB74p6aB1r4Bq1s2a69d08d1fBdC439h8cD7cBj893Bc2a5B622g21B25Ot252",
     "B125271010101u2Bg1610321633254c5216f1Bd1j0s0d0gcBfc403bh0402910256010101f235440hB4CWfGc6",
     "8cB110502Bj70fn96161616161616161vOd2pe14244Cd261Cm5B61ClhvBcfO8HB3BsXRgBvB92Hg3rkBb491D6",
     "B182Cu2Bu211017lBh40jBfcBxa96n301Bc2zcs3Bsea6u1Bi9d296m3C0o22f24a5252596161B61d6De11296L",
     "Ybcm4BcJAsK52CxB26c45b1c141011111CzxK2iBr2BhB4b4fgf31o2w41Dqj97p401paCh35252522zb1p1i111",
     "e2dyDeBxBgDs0Dms3Bcf0vvdt5B65t2z4714B6Ed296z4z4B38Bfca1e16111a1e16113BfcIm9la7o51B518Bx5",
     "201B711302mam9uBti11alapByBj61Bs31157121s2240ws3sz71tpBhalaidhD2C0BjBedBedB3896B1341mGyB",
     "51131g2Bjwa08wvlB6krm9Byvf9Bn70do796Bg19438z209Bw431c10zh1B063Bq610131e197Bm596317212l16",
     "11141921222060562634b910201B11910201317d1tC25943uBx1089EmBh28n5yBs30b9B2Bk796jsq2e4966F5",
     "BmCtC1l72027111t1128c9By72B92711rBq808C130iC0Fjwf9681B818f9ot2l1dC16111B73011188965111B0",
     "111579Imm9g1B434daCd0C7ZlCuD2hFfCV8CofBDrglaEGy5Q6HI1BlBW6Ps7u196C6196t24bBi93c99k5iM0B8",
     "39FiBrDkC24Bk7gBs111b1eGOf8BIdB59JO7316111I2f0t220e38KzCM4Cy5c387931EM19OeB92mP24358726u",
     "3E42MbCc1By112021231b10161Bs1327161r131410361Jf2o1o1u1o1u1o1u1o1u1o172BdO8Bi4Bd80e0m41eB",
     "Eou65Fx61g2611145Bpx0D4B83d2940IxuhBlN2B5FyB6Nh613111e1Fgb6B5C349BH231q11102019131010604",
     "01010121110201010101011102316131310191g52141gDPw9BCmBTQnwELd6G52GE1eHZkfR9CQiP1BPuFH65EM",
     "fBDGS8Gn"]⟩,
  ⟨["ideographic", "ideo"],
    ["NDi1p8e2BAtHB3BsWL3YIwK52CxBGAa0rGOf8BIdB59JYvKzVBoBTQnwELd6G52GE1eHZkfR9CQiP1BPuFH65EMf"]⟩,
  ⟨["idsbinaryoperator", "idsb"], ["NCw129Nt0"]⟩,
  ⟨["idstart", "ids"],
    ["Btp6pBb0a0405m1u1Mp4be47010Dl41123106012101j1Ca1Du8El1B1206B4Bzq43B9B6z11Cq10f171a220g01",
     "ttCgb0ow91405l409030no7a5n15hB5BmBh30i079ff47212l16103330g0d112e1a085412l16111111v310j2g",
     "8121l16111430i0f1n0b7212l16111430u112f0h015321331101131323bm0Bg7121m1f30q22021u047121m19",
     "1430v111f1h8121B420g05282o55h3n181026BmBb11c6Bm110141n101911902410l3w0Br71zr4D7B6k0g5433",
     "031724cc0hB110502B61J8132610132B4132w132610132e1Bk132BuB1fgCd253R72g1p5C23a7hdiehec12fBf",
     "z040BvCg7B4105BxauBdt24bB74pBim9BgCa0ClBah7Bitd1aB7qzB52az2a5B622B531511305FbBsHp252B125",
     "271010101u2Bg1610321633254c5216D80d0gcCt0402910256010101f235440hB4CWfGc6331cB110502Bj70g",
     "m9616161616161616Pa2p874244Cd441Ch135B61ClhvBcfO8HB3BsXRgBvB92Hg3fa1kBagu2C7B382Cu2Bu211",
     "017lf12131mtBfeBdBq53011bramps7Bas0g419a41B4n217km303Bd1031242010o22a72c5252596161B61d6D",
     "6tLYbcm4BcJAsK52CxB26c450191c141011111CzxK2iBr2BhB4bD841DqB0p6pbCg35252522zb1p1i111e2dyD",
     "eBxBgHfs3BcBbvdt5B1at2z4714B6Ediz4z4B38Bfca1e16111a1e16113BfcIm9la7o51B518Bx5201B711302m",
     "am9uBti11alapByBj61Bs0f3121sB6s3sz71rrBhalaidhD2C0BjBedBedzB2r9mGyB561g2Bnsa08lB6hBakrmc",
     "BgBl120dB8woqzt0208y30cBbe3l010zh1oj1Br610131e197BaB27212l16111430i0c4u910201B110p010B8B",
     "gi3k2uBbk110F4BaB53B0Bbk0BnB6d0BzqB16F5B7D8Brv72027111nf010Cm72B2g010s0aB370l0bB9j0iC0Fj",
     "wv81B0h0BdtD46111B1l0p5111ve0J3if01c1xDg0C7ZlCuD2hFfCV8CofBDrh5pEGy5Q6HI1tBWyPs7uhC6htiB",
     "bg3vk5iM0B8FvBrDkC250BucBs110sGOf8BIdB59JO7316111I2f0t220e38KzCM4Cy5c3879GKeCc1By1120212",
     "31b10161Bs1327161r131410361Jf2o1o1u1o1u1o1u1o1u1o17BZ8u65H9BpE2B8a6g0IxtiB7NgrGct20Nr613",
     "111e1FgBnBv70BHg31q1110201913101060401010121110201010101011102316131310191g52141gESsBTQn",
     "wELd6G52GE1eHZkfR9CQiP1BPuFH65EMf"]⟩,
  ⟨["idstrinaryoperator", "idst"], ["NCy1"]⟩,
  ⟨["idsunaryoperator", "idsu"], ["NDa1"]⟩,
  ⟨["joincontrol", "joinc"], ["ITw1"]⟩,
  ⟨["logicalorderexception", "loe"], ["DXc4Df4CZs220BNQy12011"]⟩,
  ⟨["lowercase", "lower"],
    ["CppBb0a040B0n171010101010101010101010101010101010101010101010101010101110101010101010111",
     "0101010101010101010101010101010101010101010102010122010203140203220201010201110203010212",
     "2602020101010101010101110101010101010101120103010101010101010101010101010101010101010101",
     "01010101010101016202110401010101Bw1z71u4Co0B70103023i0ry11321010101010101010101010141020",
     "21BfBb1010101010101010101010101010101010901010101010101010101010101010101010101010101010",
     "1010102010101010101110101010101010101010101010101010101010101010101010101010101010101010",
     "1010101010101010101010101010BcB4DC7B613V45CIi810D9FbBt0101010101010101010101010101010101",
     "0101010101010101010101010101010101010101010101010101010101010101010101010101010101010101",
     "0101010101010101010101010181010101010101010101010101010101010101010101010101010101010101",
     "010101010101010101010101010101010101885a78785a7878d2787878411603211832187a211Dd0d0gcD103",
     "130r04040218340xf40XfpBZqBb1031101010401117301010101010101010101010101010101010101010101",
     "0101010101010101010101010101010101010101010101010101011701040cB11050BHCz0101010101010101",
     "01010101010101010101010101010j010101010101010101010101012Dp01010101010121010101010101010",
     "1010101010101010101010101010101010101010101019101020101010104010201210101010101010101010",
     "505010101010101010401020301010101010m21012WtB61d6C7VRk6c4BDlpBI5B3DszEba1e1611Mj0221B518",
     "BJpBeDhlDBuvXK0vBBUipq61hqpq310161aqpqpqpqpqpqpqpqpqrso15qo15qo15qo15qo1510BZ891j65H9BpC",
     "Jwx"]⟩,
  ⟨["math"],
    ["B70g2v0t010B9040B10v0U8220q122On2HD90r2b030d0e3l4b4Btc403144i04029102560312112153d10Bwn1",
     "511414v1061eHf83k1Ci0uq10o0b6Md1c945412134e01025b751Bl010t392JcBrH4O7Bck25CEW40Wv510Ei0g",
     "2t010t010Dn063DSx1CCH4Cc1By112021231b10161Bs1327161r131410361Jf2I32BdGAg31q1110201913101",
     "060401010121110201010101011102316131310191g52141gBg1"]⟩,
  ⟨["modifiercombiningmark", "mcm"], ["BT0120Dn06031Nd11230v0"]⟩,
  ⟨["noncharactercodepoint", "nchar"],
    ["CRKwvOm1CSAe1CSAe1CSAe1CSAe1CSAe1CSAe1CSAe1CSAe1CSAe1CSAe1CSAe1CSAe1CSAe1CSAe1CSAe1CSAe1"]⟩,
  ⟨["otheralphabetic", "oalpha"],
    ["X90tcQ0d10111110C0aBcc16g0Ct6432140z0ufCuaCt1381213Cy0Bob366jBi12e1152a1t2Bm62121a0a1t2B",
     "m4412140u130b2Bm71211l1m242Bm6212191a1u0Bn43212a0B44Bl6121281b1t2Bm6121281b1f0c3Bm61212a",
     "0a1t2C351017i1Bp026i0Cr02511g0Eji9a1zD2b1023n342122633db10a3BTw1u1u1u1BuiF81y0Dab48G64Bl",
     "92jC21b2Bd4BceBo2u821BlaBeiLgxBW1BfCLqvBGYk7y1Ju080n4Cg1Bef10Bl0B24sbB93BcbB10Bvdc081B92",
     "Be0122150B8450Gl7VR70CHb4BUe21153Vw3Bt0Ix1C70H72BhdB91b2B9890Bp2B0bi1Bl2Bcce1Ck8206020Ed",
     "9n3Bm62121a0a1Cc810201311Cvc12CyhGl626t1Cae10CyaCvdH5cGv511213010Dy62540s9B6413iaBadLb71",
     "6Cbl1dDe53011121030Bu41113Jo39110Bc632SAdgDWg01Bi73Cl1UZ80JRl61g261114Cs0CJz0CE8p6p6p"]⟩,
  ⟨["otherdefaultignorablecodepoint", "odi"], ["Xj0DVz1BSz1CJr0EQu0CEKj0C78BJAFz01tCoDjGoDVz"]⟩,
  ⟨["othergraphemeextend", "ogrext"],
    ["CRa0o0Jy0o0Cu0o0Gg010411191Cv0o0Db0f0CNh0u0BCg0501051Ct0Bz1BD40EKp1BHDf0D00XMl1EYw0D80Hc",
     "0e090Co090201250G80c0Gp0Ha0Rl0c0BQr0WBq1BAQz165BGUZ9Cn"]⟩,
  ⟨["otheridcontinue", "oidc"], ["F30Tz0EIx8BTk0BS11EQd0CELt0"]⟩,
  ⟨["otheridstart", "oids"], ["GSd1CIx0l0EFo1"]⟩,
  ⟨["otherlowercase", "olower"],
    ["Eq0f0Nx871u4Co0Bg0DS10DInBqd0yB0T50d0gcFvfXkpCBu1BHKe1Fu0Dl231Y2390ZEu0221B518CHF9Bp"]⟩,
  ⟨["othermath", "omath"],
    ["Cm0Yh220q121HS00r2b0w3o1e1Btc403144i04029103460312112153354C34231111101421414h2110161061",
     "I23Eo110o0h0Md1c854512134e01025o1Bl010t391Ji1v9L7lBr3w1CGCb01040Fv010CGExCc1By112021231b",
     "10161Bs1327161r131410361Jf2o1o1u1o1u1o1u1o1u1o172BdGAg31q1110201913101060401010121110201",
     "010101011102316131310191g52141g"]⟩,
  ⟨["otheruppercase", "oupper"], ["JDcfXapEVXsp6p6p"]⟩,
  ⟨["patternsyntax", "patsyn"],
    ["xea6q310q3y610111011404030n0v0IN4n8e2i19IhTzEgRhuBFfO8DjKp24of0CEC51H91"]⟩,
  ⟨["patternwhitespace", "patws"], ["94i0Cs0IQ81o1"]⟩,
  ⟨["prependedconcatenationmark", "pcm"], ["BQo5Fz0Bd0Ko1C80CUEa0f0"]⟩,
  ⟨["quotationmark", "qmark"], ["y040Dn0f0IP07p1DVr0Mp3d2CEJt3F9040Ci1"]⟩,
  ⟨["radical"], ["MSop1CgcFx"]⟩,
  ⟨["regionalindicator", "ri"], ["FGEmp"]⟩,
  ⟨["sentenceterminal", "sterm"],
    ["x0c0g0BLl0E32F00B72Gu0Bp01031I51BX01Vy041Vh0Fi1Ed1B9050Iq1Ju3Ei1a121t2F71Bt1Zw0n192DM72I",
     "i0d0m1Lx0BFZw0Hi1Gb030Km1Ce1Cn0E81E32E01Gx0WM6021Bn031Ep0c0g0Bt0CZw1BJh4B83F91D93Dj2Dl16",
     "0g1Cg111D00Ia1D91Kd15eCx1Gx2Od010Gz1Cf1Lo1T81C21UOh1Dp0Bt1b0Pd1I80VIu0IEo0"]⟩,
  ⟨["softdotted", "sd"],
    ["Cx1Fg0Ht0u0Bg0k0Iw0Cq010GW10Bf0d030Do0Ed0Lp0Fy1DBm0ELWl1Be1Be1Be1Be1Be1Be1Be1Be1Be1Be1Be",
     "1Be1CIm0Ih1q0"]⟩,
  ⟨["terminalpunctuation", "term"],
    ["x0a010b130X2080O90Bl0C00e012F00B7a10Gj1Bi517v0H91BJ81Es045In1Vx7Vh0Dg2Bz1Ed230B3321Iq1Ju",
     "3Ei1a112t2F74Bq1Zw0n192DM72Ii0d040a01131Lw1BFZv1Hh2Gb4Km1Ce1Cn0E72E32Dj0g1Gx0WM6021Bl213",
     "Ep0a010b130Bt020BE20Bc0BG60Fj0Im1E85Bw5Ch3BAg4B83F96D43Dj2Dl160g1Cg4D00Ia1D92c1Jy33eCx1G",
     "x2Od010Gz1Cf141Li2B90Rx1C21BKr4TDl1Dp0Bt2a0Pd1I71VIu0IEn3"]⟩,
  ⟨["unifiedideograph", "uideo"],
    ["OFsHB3BsWL3YQe11011a0101122CTPyBTQnwELd6G52GE1eHZkfR9EVeFH65EMf"]⟩,
  ⟨["uppercase", "upper"],
    ["BtpCtm16x0101010101010101010101010101010101010101010101010101010201010101010101020101010",
     "1010101010101010101010101010101010101011101031101112231112311110101110201112101130702020",
     "2010101010101010201010101010101010202012101010101010101010101010101010101010101010101010",
     "10101010107111201310101010I10103080601210111g18z0223010101010101010101010105020112BeBc01",
     "0101010101010101010101010101010901010101010101010101010101010101010101010101010101010111",
     "0101010101020101010101010101010101010101010101010101010101010101010101010101010101010101",
     "01010101010101010102B1DC9B11050U2CdCIz06B622Iw010101010101010101010101010101010101010101",
     "0101010101010101010101010101010101010101010101010101010101010101010101010101010101010101",
     "0101010101010101010901010101010101010101010101010101010101010101010101010101010101010101",
     "010101010101010101010101010109785a78785b010101087C03c3c3c4b3Ha040322220346010101323a150q",
     "fj0WqpBZ4BbBc012201010131020821010101010101010101010101010101010101010101010101010101010",
     "1010101010101010101010101010101010101010801040BHEl01010101010101010101010101010101010101",
     "0101010j010101010101010101010101010Dr010101010101030101010101010101010101010101010101010",
     "101010101010101010101010a010111010101040102010301010101010101010101414101010101010101310",
     "113050101010o0XVvpBHxB3DszEca1e1611BX6BeEdlDBuvXK0vBBUopqpqpq01120212317qpq1132716r11314",
     "1036rpqpqpqpqpqpuoxoxoxoxox0ESdxCFap6p6p"]⟩,
  ⟨["variationselector", "vs"], ["GOz210CKX4fBJBAoGn"]⟩,
  ⟨["whitespace", "wspace", "space"], ["94i0Cs0q0FZj0CPjat150Bb0EH40"]⟩,
  ⟨["xidcontinue", "xidc"],
    ["Bc97p401pBb0a010205m1u1Mp4be47010hD811321064101j1Ca1Du142El1B1206B48B8101111108q43ta5C14",
     "Ct17291i20gBm2CseBh40202B9ir4a5n158C21Dk291i17212l1610332821238041142ba0102215412l161111",
     "11201441223073107fb218121l16111429121220f329961217212l1611142821227241142910g11532133110",
     "1131323b4432132060e9gc121m1f2812137112202329g317121m19142812137161132912cc121Be121453742",
     "9a5121h3n181026304510176921dBl5e19B3110141n101m2410161923w0n169b01010491z4j1h1z90BlC16C5",
     "2B110502B61J8132610132B4132w132610132e1Bk132Bu2298efgCd253R72g1p5C23a7l9lbjcc1211cCb3041",
     "29x21a6Cg7B65Bxau1b4baB324bB74p6aB1r4Bq1s2a69d08d1fBdC439h8cD7cBj893Bc2a5B622g21B25Ot252",
     "B125271010101u2Bg1610321633254c5216f1Bd1j0s0d0gcBfc403bh0402910256010101f235440hB4CWfGc6",
     "8cB110502Bj70fn96161616161616161vOd2pe14244Cd21221Cm5B61ClhvBcfO8HB3BsXRgBvB92Hg3rkBb491",
     "D6B182Cu2Bu211017lBh40jBfcBxa96n301Bc2zcs3Bsea6u1Bi9d296m3C0o22f24a5252596161B61d6De1129",
     "6LYbcm4BcJAsK52CxB26c45b1c141011111CzxDu6G1iBr2BhB496fgf31o2x010301010101Dhj97p401paCh35",
     "252522zb1p1i111e2dyDeBxBgDs0Dms3Bcf0vvdt5B65t2z4714B6Ed296z4z4B38Bfca1e16111a1e16113BfcI",
     "m9la7o51B518Bx5201B711302mam9uBti11alapByBj61Bs31157121s2240ws3sz71tpBhalaidhD2C0BjBedBe",
     "dB3896B1341mGyB51131g2Bjwa08wvlB6krm9Byvf9Bn70do796Bg19438z209Bw431c10zh1B063Bq610131e19",
     "7Bm596317212l1611141921222060562634b910201B11910201317d1tC25943uBx1089EmBh28n5yBs30b9B2B",
     "k796jsq2e4966F5BmCtC1l72027111t1128c9By72B92711rBq808C130iC0Fjwf9681B818f9ot2l1dC16111B7",
     "3011188965111B0111579Imm9g1B434daCd0C7ZlCuD2hFfCV8CofBDrglaEGy5Q6HI1BlBW6Ps7u196C6196t24",
     "bBi93c99k5iM0B839FiBrDkC24Bk7gBs111b1eGOf8BIdB59JO7316111I2f0t220e38KzCM4Cy5c387931EM19O",
     "eB92mP24358726u3E42MbCc1By112021231b10161Bs1327161r131410361Jf2o1o1u1o1u1o1u1o1u1o172BdO",
     "8Bi4Bd80e0m41eBEou65Fx61g2611145Bpx0D4B83d2940IxuhBlN2B5FyB6Nh613111e1Fgb6B5C349BH231q11",
     "10201913101060401010121110201010101011102316131310191g52141gDPw9BCmBTQnwELd6G52GE1eHZkfR",
     "9CQiP1BPuFH65EMfBDGS8Gn"]⟩,
  ⟨["xidstart", "xids"],
    ["Btp6pBb0a0405m1u1Mp4be47010Dl41132106012101j1Ca1Du8El1B1206B4Bzq43B9B6z11Cq10f171a220g01",
     "ttCgb0ow91405l409030no7a5n15hB5BmBh30i079ff47212l16103330g0d112e1a085412l16111111v310j2g",
     "8121l16111430i0f1n0b7212l16111430u112f0h015321331101131323bm0Bg7121m1f30q22021u047121m19",
     "1430v111f1h8121B420g05282o55h3n181026BmBb10d6Bm110141n101910a02410l3w0Br71zr4D7B6k0g5433",
     "031724cc0hB110502B61J8132610132B4132w132610132e1Bk132BuB1fgCd253R72g1p5C23a7hdiehec12fBf",
     "z040BvCg7B4105BxauBdt24bB74pBim9BgCa0ClBah7Bitd1aB7qzB52az2a5B622B531511305FbBsHp252B125",
     "271010101u2Bg1610321633254c5216D80d0gcCt0402910256010101f235440hB4CWfGc6331cB110502Bj70g",
     "m9616161616161616Pa2p874244Cd621Ch135B61ClhvBcfO8HB3BsXRgBvB92Hg3fa1kBagu2C7B382Cu2Bu211",
     "017lf12131mtBfeBdBq53011bramps7Bas0g419a41B4n217km303Bd1031242010o22a72c5252596161B61d6D",
     "6tLYbcm4BcJAsK52CxB26c450191c141011111CzxDu6G1iBr2BhB49Db010301010101DhB0p6pbBj2u3525252",
     "2zb1p1i111e2dyDeBxBgHfs3BcBbvdt5B1at2z4714B6Ediz4z4B38Bfca1e16111a1e16113BfcIm9la7o51B51",
     "8Bx5201B711302mam9uBti11alapByBj61Bs0f3121sB6s3sz71rrBhalaidhD2C0BjBedBedzB2r9mGyB561g2B",
     "nsa08lB6hBakrmcBgBl120dB8woqzt0208y30cBbe3l010zh1oj1Br610131e197BaB27212l16111430i0c4u91",
     "0201B110p010B8Bgi3k2uBbk110F4BaB53B0Bbk0BnB6d0BzqB16F5B7D8Brv72027111nf010Cm72B2g010s0aB",
     "370l0bB9j0iC0Fjwv81B0h0BdtD46111B1l0p5111ve0J3if01c1xDg0C7ZlCuD2hFfCV8CofBDrh5pEGy5Q6HI1",
     "tBWyPs7uhC6htiBbg3vk5iM0B8FvBrDkC250BucBs110sGOf8BIdB59JO7316111I2f0t220e38KzCM4Cy5c3879",
     "GKeCc1By112021231b10161Bs1327161r131410361Jf2o1o1u1o1u1o1u1o1u1o17BZ8u65H9BpE2B8a6g0Ixti",
     "B7NgrGct20Nr613111e1FgBnBv70BHg31q111020191310106040101012111020101010101110231613131019",
     "1g52141gESsBTQnwELd6G52GE1eHZkfR9CQiP1BPuFH65EMf"]⟩]

/-- The set of a binary property, by name. -/
def binarySet? (name : String) : Option RangeSet := Row.find? binaryRows name

/-- The word characters. -/
def word : RangeSet := RangeCode.decode
  ["Bc97p401pBb0a0405m1u1Mp4be47010hD81123106012101j1Ca1Du1Es1B1206B48B8101111108q43ta5C14Ct",
   "17291i20gBm2CseBh40202B9ir4a5n158C21Dk291i17212l1610332821238041142ba0102215412l16111111",
   "201441223073107fb218121l16111429121220f329961217212l1611142821227241142910g1153213311011",
   "31323b4432132060e9gc121m1f2812137112202329g317121m19142812137161132912cc121Be1214537429a",
   "5121h3n181026304510176921dBl5e19B3110141n101m2410161923w0n169b01010491z4j1h1z90BlC16C52B",
   "110502B61J8132610132B4132w132610132e1Bk132Bu22wfgCd253R72g1p5C23a7l9lbjcc1211cCb304129x2",
   "1a6Cg7B65Bxau1b4baB324bB74p69B2r4Bq1s2a69d08uBdC439h8cD7cBj893Bc2a5B622g21B25Ot252B12527",
   "1010101u2Bg1610321633254c5216f1Bd1j0s0d0gcBfwh040291034601010131a235440hB4WlBfBYeGc68cB1",
   "10502Bj70fn96161616161616161vBb0N12pe14244Cd21221Ch135B61ClhvBcfO8HB3BsXRgBvB92Hg3rkBe19",
   "1D6B182Cu2Bu211017lBh40jBfcBxa96n301Bc2zcs3Bsea6u1Bi9d296m3C0o22f24a5252596161B61d6De112",
   "96LYbcm4BcJAsK52CxB26c45b1c141011111CzxK2iBr2BhB4b4fgf31o2w41Dqj97p401pbCg35252522zb1p1i",
   "111e2dyDeBxBgDs0Dms3Bcf0vvdt5B65t2z4714B6Ed296z4z4B38Bfca1e16111a1e16113BfcIm9la7o51B518",
   "Bx5201B711302mam9uBti11alapByBj61Bs31157121s2240ws3sz71tpBhalaidhD2C0BjBedBedB3896B1341m",
   "GyB51131g2Bjwa08wvlB6krm9Byvf9Bn70do796Bg19438z209Bw431c10zh1B063Bq610131e197Bm596317212",
   "l1611141921222060562634b910201B11910201317d1tC25943uBx1089EmBh28n5yBs30b9B2Bk796jsq2e496",
   "6F5BmCtC1l72027111t1128c9By72B92711rBq808C130iC0Fjwf9681B818f9ot2l1dC16111B7301118896511",
   "1B0111579Imm9g1B434daCd0C7ZlCuD2hFfCV8CofBDrglaEGy5Q6HI1BlBW6Ps7u196C6196t24bBi93c99k5iM",
   "0B839FiBrDkC24Bk7gBs111b1eGOf8BIdB59JO7316111I2f0t220e38KzCM4Cy5c387931EM19OeB92mP243587",
   "26u3E42MbCc1By112021231b10161Bs1327161r131410361Jf2o1o1u1o1u1o1u1o1u1o172BdO8Bi4Bd80e0m4",
   "1eBEou65Fx61g2611145Bpx0D4B83d2940IxuhBlN2B5FyB6Nh613111e1Fgb6B5C349BH231q11102019131010",
   "60401010121110201010101011102316131310191g52141gRgp6p6pCVy9BCmBTQnwELd6G52GE1eHZkfR9CQiP",
   "1BPuFH65EMfBDGS8Gn"]

end PatternGate.Unicode
