import PatternGate.Unicode.RangeCode

/-!
# Scripts

The script of a character, and the scripts it is used with. Most scripts are used with their own
characters only; `scriptExtensionRows` lists the ones that share characters with others.
-/

namespace PatternGate.Unicode

/-- The scripts, each with its names and the characters whose script it is. -/
def scriptRows : List Row := [
  ⟨["adlam", "adlm"], ["FDTcC34941"]⟩,
  ⟨["ahom"], ["CYI0q2e4m"]⟩,
  ⟨["anatolianhieroglyphs", "hluw"], ["DKQ0Q6"]⟩,
  ⟨["arabic", "arab"],
    ["BQo4151d121v19bp1Cz1xC8BbGou115C21sCOH4D6gK22C72Bh70wfD441DqEFfuBv2Bj3CIZs31q11102019131",
     "01060401010121110201010101011102316131310191g52141gBg1"]⟩,
  ⟨["armenian", "armn"], ["BKxB12Bd22CPDv4"]⟩,
  ⟨["avestan", "avst"], ["CVAoBh36"]⟩,
  ⟨["balinese", "bali"], ["HK0C41Bd"]⟩,
  ⟨["bamum", "bamu"], ["BTOwCfCAUoPs"]⟩,
  ⟨["bassavah", "bass"], ["DVG0t25"]⟩,
  ⟨["batak", "batk"], ["HPcBf83"]⟩,
  ⟨["bengali", "beng"], ["CPk317212l1610332821238041142o"]⟩,
  ⟨["bhaiksuki", "bhks"], ["CZRk81B81das"]⟩,
  ⟨["bopomofo", "bopo"], ["Uq1MPtB6D4v"]⟩,
  ⟨["brahmi", "brah"], ["CWK8C54z90"]⟩,
  ⟨["braille", "brai"], ["KYgH3"]⟩,
  ⟨["buginese", "bugi"], ["HCwr21"]⟩,
  ⟨["buhid", "buhd"], ["GJcj"]⟩,
  ⟨["canadianaboriginal", "cans"], ["FM8RrPkBxCSMqf"]⟩,
  ⟨["carian", "cari"], ["CST4Bc"]⟩,
  ⟨["caucasianalbanian", "aghb"], ["CTLcBfb0"]⟩,
  ⟨["chakma", "cakm"], ["CWRcBg1h"]⟩,
  ⟨["cham"], ["BUMwBi9d2923"]⟩,
  ⟨["cherokee", "cher"], ["FJkCd25BPKyC7"]⟩,
  ⟨["chorasmian", "chrs"], ["CWI0r"]⟩,
  ⟨["common", "zyyy"],
    ["0Bsq5qBa1e14n0v0MhB2542jD80906010Rp060e030w0Ec0Oc0Dl1BIh0L93I20BQ72Bz1Fn110BI50d07315122",
     "0Vhb2Ce1a3a1ehwBrB112251q1gB524ShmalZrH4Rf2v1CwO8ClL6k101of743Cj130Ci1E3fwB190BcBrvC8Bb0",
     "CgEnHB4BrYIwxCu2El9Gs0Eg0Kz0e1WJu1Fs9my1i13E301vq5qaa0B91Bs616a4H624B838C8cBfB8GcqBYU43E",
     "F8Gx6M3EcD7BoGtaB22Bp3g817t4BoFxjcjcCe9oDrCc1By112021231b10161Bs1327161r131410361Jf2I32B",
     "dFPdBvC4BoTmB74Crce2e1e1B0aEtBkp11dB74871e5EaBBb4g3c3Da4Cm6b40fb4Bj896B38t2b41BqJfcd2c39",
     "5Bj7e2a687E21CtBGJHz0uCn"]⟩,
  ⟨["coptic", "copt", "qaac"], ["BBmdLCgD756"]⟩,
  ⟨["cuneiform", "xsux"], ["DAU0ZlCuD214bFf"]⟩,
  ⟨["cypriot", "cprt"], ["CUFc5201B7113020"]⟩,
  ⟨["cyprominoan", "cpmn"], ["DFAoCq"]⟩,
  ⟨["cyrillic", "cyrl"], ["BCgDo2EoGJsaEg0C40EMnvBGX4CnXYm1CJV4Bpx0"]⟩,
  ⟨["deseret", "dsrt"], ["CTCwC7"]⟩,
  ⟨["devanagari", "deva"], ["CM0C84e2pBRPcvBFEo9"]⟩,
  ⟨["divesakuru", "diak"], ["CYW862027111t112b99"]⟩,
  ⟨["dogra", "dogr"], ["CYP4Bn"]⟩,
  ⟨["duployan", "dupl"], ["ERLcCy5c387923"]⟩,
  ⟨["egyptianhieroglyphs", "egyp"], ["DFDsBEtaEGy"]⟩,
  ⟨["elbasan", "elba"], ["CTK0B3"]⟩,
  ⟨["elymaic", "elym"], ["CWJcm"]⟩,
  ⟨["ethiopic", "ethi"],
    ["EY0C0132610132B4132w132610132e1Bk132Bu2v3pHC6m9616161616161616BIFu525259616DIQ1613111e"]⟩,
  ⟨["garay", "gara"], ["CVQoB13s81"]⟩,
  ⟨["georgian", "geor"], ["EO8B110502B613DE8B622ELkB11050"]⟩,
  ⟨["glagolitic", "glag"], ["MAwCnEPDs61g261114"]⟩,
  ⟨["gothic", "goth"], ["CSX4q"]⟩,
  ⟨["grantha", "gran"], ["CXFk317212l1611142821222060562634"]⟩,
  ⟨["greek", "grek"],
    ["Yg3122310401012101j1BqefGWu4Be444Cc0Iwl252B125271010101u2Bg1e1d251i2218I70BLV20XMiC6h0CE",
     "ZrBx"]⟩,
  ⟨["gujarati", "gujr"], ["CWp218121l16111429121220f32b76"]⟩,
  ⟨["gunjalagondi", "gong"], ["DABc5111B0111579"]⟩,
  ⟨["gurmukhi", "guru"], ["CT5215412l16111111201441223073107g"]⟩,
  ⟨["gurungkhema", "gukh"], ["DSO8Bl"]⟩,
  ⟨["han", "hani"],
    ["MSop1CgcFxBb010p8e3BAsHB3BsWL3YIwK52CxBGA81c1BNKeBTQnwELd6G52GE1eHZkfR9CQiP1BPuFH65EMf"]⟩,
  ⟨["hangul", "hang"], ["EQwH3IGm1H5ClD5uBtuBGNdsRvLYbcm4BcKVwu35252522"]⟩,
  ⟨["hanifirohingya", "rohg"], ["CVOwB389"]⟩,
  ⟨["hanunoo", "hano"], ["GIgk"]⟩,
  ⟨["hatran", "hatr"], ["CULki1154"]⟩,
  ⟨["hebrew", "hebr"], ["BNlBi8q45CPBcp1410111119"]⟩,
  ⟨["hiragana", "hira"], ["NF5Cd62EAW9Hyi0t2RRx0"]⟩,
  ⟨["imperialaramaic", "armi"], ["CUH4l18"]⟩,
  ⟨["inherited", "zinh", "qaai"],
    ["VcD3Hp1Mkaq0Ug3ETfuO921c16406031FiBrOk1FewEE93Cz1CEElfgdBB30Ga0EMa0BZJ8B92mP42h726u3BGVD",
     "uGn"]⟩,
  ⟨["inscriptionalpahlavi", "phli"], ["CVDci57"]⟩,
  ⟨["inscriptionalparthian", "prti"], ["CVCgl27"]⟩,
  ⟨["javanese", "java"], ["BUJcC52941"]⟩,
  ⟨["kaithi", "kthi"], ["CWNsBua0"]⟩,
  ⟨["kannada", "knda"], ["DKwc121m19142812137161132912"]⟩,
  ⟨["katakana", "kana"], ["NHtCh22GofFsBa1CfCDV291B8BWFu3161110Hz2Be0e3"]⟩,
  ⟨["kawi"], ["DAMwg1B43s"]⟩,
  ⟨["kayahli", "kali"], ["BUFsB910"]⟩,
  ⟨["kharoshthi", "khar"], ["CUTk31157121s224978"]⟩,
  ⟨["khitansmallscript", "kits"], ["DWQ40HKrN1B50"]⟩,
  ⟨["khmer", "khmr"], ["GL4Cl2969Niv"]⟩,
  ⟨["khojki", "khoj"], ["CWYgh1Ba"]⟩,
  ⟨["khudawadi", "sind"], ["CXDcBm59"]⟩,
  ⟨["kiratrai", "krai"], ["DVXcBl"]⟩,
  ⟨["lao", "laoo"], ["DZ5110141n101m2410161923"]⟩,
  ⟨["latin", "latn"],
    ["Btp6pBb0f05m1u1MgB34HDnB16Bc535c1BxBtH3K90d0gcDx160r0hB4CZ3vBHO2Ct3Bu211017ldWoB61813VTy",
     "6BD6p6pCFx51B518CGWtu65"]⟩,
  ⟨["lepcha", "lepc"], ["HR4Bj3e32"]⟩,
  ⟨["limbu", "limb"], ["GVsu1b4b403b"]⟩,
  ⟨["lineara", "lina"], ["CTR4Im9la7"]⟩,
  ⟨["linearb", "linb"], ["CSAgb1p1i111e2dyDe"]⟩,
  ⟨["lisu"], ["BTC0BbBHOg0"]⟩,
  ⟨["lycian", "lyci"], ["CSS8s"]⟩,
  ⟨["lydian", "lydi"], ["CUNcp50"]⟩,
  ⟨["mahajani", "mahj"], ["CWTkB2"]⟩,
  ⟨["makasar", "maka"], ["DAM0o"]⟩,
  ⟨["malayalam", "mlym"], ["DOgc121Be12154f2p"]⟩,
  ⟨["mandaic", "mand"], ["CGor20"]⟩,
  ⟨["manichaean", "mani"], ["CUYwB24b"]⟩,
  ⟨["marchen", "marc"], ["CZUov2l1d"]⟩,
  ⟨["masaramgondi", "gonm"], ["CZYo6111B730111889"]⟩,
  ⟨["medefaidrin", "medf"], ["DWEgCi"]⟩,
  ⟨["meeteimayek", "mtei"], ["BUT4mFlB929"]⟩,
  ⟨["mendekikakui", "mend"], ["FDM8Fg2f"]⟩,
  ⟨["meroiticcursive", "merc"], ["CUQwn4j2B9"]⟩,
  ⟨["meroitichieroglyphs", "mero"], ["CUQ0v"]⟩,
  ⟨["miao", "plrd"], ["DWJsC24Bk7g"]⟩,
  ⟨["modi"], ["CYAwBwb9"]⟩,
  ⟨["mongolian", "mong"], ["GOo1201j6Cg7B6CRK5c"]⟩,
  ⟨["mro", "mroo"], ["DVC0u1941"]⟩,
  ⟨["multani", "mult"], ["CXC0610131e1a"]⟩,
  ⟨["myanmar", "mymr"], ["EJsEfBPXsuCpvBDQ8j"]⟩,
  ⟨["nabataean", "nbat"], ["CUIwu88"]⟩,
  ⟨["nagmundari", "nagm"], ["FCPkB5"]⟩,
  ⟨["nandinagari", "nand"], ["CZAo72B92a"]⟩,
  ⟨["newtailue", "talu"], ["GZcB74p6a31"]⟩,
  ⟨["newa"], ["CXMoCj14"]⟩,
  ⟨["nko", "nkoo"], ["CD4Bm22"]⟩,
  ⟨["nushu", "nshu"], ["DWQ10RY6Kz"]⟩,
  ⟨["nyiakengpuachuehmong", "hmnp"], ["FBOgB83d2941"]⟩,
  ⟨["ogham", "ogam"], ["GE0s"]⟩,
  ⟨["olchiki", "olck"], ["HTcBb"]⟩,
  ⟨["olonal", "onao"], ["FCWoB640"]⟩,
  ⟨["oldhungarian", "hung"], ["CVLcBedBe75"]⟩,
  ⟨["olditalic", "ital"], ["CSVsz92"]⟩,
  ⟨["oldnortharabian", "narb"], ["CUX4v"]⟩,
  ⟨["oldpermic", "perm"], ["CSY0B6"]⟩,
  ⟨["oldpersian", "xpeo"], ["CTA8z4d"]⟩,
  ⟨["oldsogdian", "sogo"], ["CWD4B3"]⟩,
  ⟨["oldsoutharabian", "sarb"], ["CUW8v"]⟩,
  ⟨["oldturkic", "orkh"], ["CVHsC0"]⟩,
  ⟨["olduyghur", "ougr"], ["CWG8p"]⟩,
  ⟨["oriya", "orya"], ["DA9217212l1611142821227241142h"]⟩,
  ⟨["osage", "osge"], ["CTHsz4z"]⟩,
  ⟨["osmanya", "osma"], ["CTGgt29"]⟩,
  ⟨["pahawhhmong", "hmng"], ["DVHcBxa9161k5i"]⟩,
  ⟨["palmyrene", "palm"], ["CUI0v"]⟩,
  ⟨["paucinhau", "pauc"], ["CZIoBk"]⟩,
  ⟨["phagspa", "phag"], ["BUAgBj"]⟩,
  ⟨["phoenician", "phnx"], ["CUMgr30"]⟩,
  ⟨["psalterpahlavi", "phlp"], ["CVE8h73c6"]⟩,
  ⟨["rejang", "rjng"], ["BUH4zb0"]⟩,
  ⟨["runic", "runr"], ["GEwC23a"]⟩,
  ⟨["samaritan", "samr"], ["CEwB92e"]⟩,
  ⟨["saurashtra", "saur"], ["BUC8Bx8b"]⟩,
  ⟨["sharada", "shrd"], ["CWUwCn"]⟩,
  ⟨["shavian", "shaw"], ["CTF4Bb"]⟩,
  ⟨["siddham", "sidd"], ["CXXcBh2B1"]⟩,
  ⟨["signwriting", "sgnw"], ["EZCgS3f41e"]⟩,
  ⟨["sinhala", "sinh"], ["DS121h3n181026304510176922CTCcj"]⟩,
  ⟨["sogdian", "sogd"], ["CWEgB5"]⟩,
  ⟨["sorasompeng", "sora"], ["CWQ0o79"]⟩,
  ⟨["soyombo", "soyo"], ["CZFkCa"]⟩,
  ⟨["sundanese", "sund"], ["HNkBrH47"]⟩,
  ⟨["sunuwar", "sunu"], ["CZPsxe9"]⟩,
  ⟨["sylotinagri", "sylo"], ["BTYoB8"]⟩,
  ⟨["syriac", "syrc"], ["BXsd1Bn22Hka"]⟩,
  ⟨["tagalog", "tglg"], ["GHkl90"]⟩,
  ⟨["tagbanwa", "tagb"], ["GK8c1211"]⟩,
  ⟨["taile", "tale"], ["GY0t24"]⟩,
  ⟨["taitham", "lana"], ["HDsBq1s2a696d"]⟩,
  ⟨["taiviet", "tavt"], ["BUQgBuo4"]⟩,
  ⟨["takri", "takr"], ["CYEgBl69"]⟩,
  ⟨["tamil", "taml"], ["DDu115321331101131323b4432132060ekCXL1Bdd0"]⟩,
  ⟨["tangsa", "tnsa"], ["DVDcC619"]⟩,
  ⟨["tangut", "tang"], ["DWQ00vGOf8VbO88"]⟩,
  ⟨["telugu", "telu"], ["DHcc121m1f281213711220232978"]⟩,
  ⟨["thaana", "thaa"], ["CBcBd"]⟩,
  ⟨["thai"], ["DVlBl5r"]⟩,
  ⟨["tibetan", "tibt"], ["ECoBz1z4B21z1e1641"]⟩,
  ⟨["tifinagh", "tfng"], ["MJcBj71e0"]⟩,
  ⟨["tirhuta", "tirh"], ["CXQ8Bz89"]⟩,
  ⟨["todhri", "todr"], ["CTPcBf"]⟩,
  ⟨["toto"], ["FBZku"]⟩,
  ⟨["tulutigalari", "tutg"], ["CXJ4910201B119102013191181"]⟩,
  ⟨["ugaritic", "ugar"], ["CSZct10"]⟩,
  ⟨["vai", "vaii"], ["BTDcIb"]⟩,
  ⟨["vithkuqi", "vith"], ["CTN4a1e16111a1e1611"]⟩,
  ⟨["wancho", "wcho"], ["FCAwBl50"]⟩,
  ⟨["warangciti", "wara"], ["CYTkCac0"]⟩,
  ⟨["yezidi", "yezi"], ["CVZkB51221"]⟩,
  ⟨["yi", "yiii"], ["BRTsBGc3Bi"]⟩,
  ⟨["zanabazarsquare", "zanb"], ["CZDcBz"]⟩]

/-- The scripts whose characters and whose users differ, with the characters used with them. -/
def scriptExtensionRows : List Row := [
  ⟨["adlam", "adlm"], ["BRj0w0HDa0DV50ERCeC34941"]⟩,
  ⟨["arabic", "arab"],
    ["BQo41Fy1xC8BbGou115C21sGJr0DV50CEC6D6gMc2Bh70wfD441DqBBnrDD0uBv2Bj3CIZs31q11102019131010",
     "60401010121110201010101011102316131310191g52141gBg1"]⟩,
  ⟨["armenian", "armn"], ["Vk0PcB12Bd22CPDv4"]⟩,
  ⟨["avestan", "avst"], ["F30MLc1CIK6Bh36"]⟩,
  ⟨["bengali", "beng"], ["Tg0BUs1h1q317212l1610332821238041142oFDt01021108080204022BMHd0"]⟩,
  ⟨["bopomofo", "bopo"], ["Tr012d0g1MIl2491ca32060Ff09B6D4vCDYd1Hu4"]⟩,
  ⟨["buginese", "bugi"], ["HCwr21BNHr0"]⟩,
  ⟨["buhid", "buhd"], ["GJ119j"]⟩,
  ⟨["carian", "cari"], ["F30IQy020DUb0CGCmBc"]⟩,
  ⟨["caucasianalbanian", "aghb"], ["Vg0B80B80CSNdBfb0"]⟩,
  ⟨["chakma", "cakm"], ["CSe9BSw9CSFiBg1h"]⟩,
  ⟨["cherokee", "cher"], ["Vc21061m1b1EMuCd25BPKyC7"]⟩,
  ⟨["common", "zyyy"],
    ["0Bsq5qBa1b1114n0v0Mh2191030181015542jDi06010Rp0Fz0Oc0BM40L93EKvb2w1u1911161a3a1ehwBrB112",
     "251q1gB524ShmalZrH4Rf2v1CwO8m1n2913101pLm030d0d0l0Opnv0Bdec3Eh95Cnv0HB4BrYJ4pCu2BB40e1WP",
     "o9mk2b1i13E301vq5q5Dj616a4L6cBfB8CDGjGx6M3EcD7BoGtaB22Bp3g817t4BoFxjcjcCer6DrCc1By112021",
     "231b10161Bs1327161r131410361Jf2I32BdFPdBvC4BoTmB74Crce2e1e1B0aEtBkp11dB748n5EaBBb4g3c3Da",
     "4Cm6b40fb4Bj896B38t2b41BqJfcd2c395Bj7e2a687E21CtBGJHz0uCn"]⟩,
  ⟨["coptic", "copt", "qaac"], ["F30Q803110D01D0dLCgD756Hr0CGF4r"]⟩,
  ⟨["cypriot", "cprt"], ["CSHk24B838BW05201B7113020"]⟩,
  ⟨["cyprominoan", "cpmn"], ["CSHk1MT2Cq"]⟩,
  ⟨["cyrillic", "cyrl"], ["Tg0Bv21010102050GmIfGJsaEg0C40Dj0EJ3vBv0BGV8CnXYm1CJV4Bpx0"]⟩,
  ⟨["devanagari", "deva"], ["Tg0BSjCa2B6FHcB211BC60BKZr9EmvBFEo9"]⟩,
  ⟨["dogra", "dogr"], ["COsbBRKw9BEOuBn"]⟩,
  ⟨["duployan", "dupl"], ["F30Qf110o1LUf0EEUjCy5c387927"]⟩,
  ⟨["elbasan", "elba"], ["F30Qd0CSOiB3"]⟩,
  ⟨["ethiopic", "ethi"],
    ["Vq0EC9C0132610132B4132w132610132e1Bk132Bu2v3pHC6m9616161616161616BIFu525259616DIQ1613111",
     "e"]⟩,
  ⟨["garay", "gara"], ["BR00e030CTZ4B13s81"]⟩,
  ⟨["georgian", "geor"], ["F30BI90DAuB110502BbDE8B622Zm0DLxB11050H70"]⟩,
  ⟨["glagolitic", "glag"], ["F30Qb010Km020H50DDd0EFa0DEtCnNf0BGWj0DHTs61g261114"]⟩,
  ⟨["gothic", "goth"], ["F30Qc120B40CSAeq"]⟩,
  ⟨["grantha", "gran"], ["CO91h1RsdEPw011u231BC60COFb317212l1611141921222060562634DJv110"]⟩,
  ⟨["greek", "grek"],
    ["F30Q81201010a0Ba020B672310401012101j1BqefGWu4Be444Cc2Iul252B125271010101u2Bg1e1d251i2218",
     "Cm0Fk0BLV20XMiC6h0CEZrBx"]⟩,
  ⟨["gujarati", "gujr"], ["CO91h1Hv218121l16111429121220f32b76BQZs9"]⟩,
  ⟨["gunjalagondi", "gong"], ["F30CJo1CXMi5111B0111579"]⟩,
  ⟨["gurmukhi", "guru"], ["CO91h1Eb215412l16111111201441223073107gBRDl9"]⟩,
  ⟨["gurungkhema", "gukh"], ["COt0DPZeBl"]⟩,
  ⟨["han", "hani"],
    ["F30MNkp1CgcFxqf121c1c1c2068F70E4fwB190BcB3BkBcfbBf0Cgoa4Cou1HB3BsWL3BXs7WKwK52CxYb1Hu4BE",
     "Tw1c1BBF2hILi1DTaBTQnwELd6G52GE1eHZkfR9CQiP1BPuFH65EMf"]⟩,
  ⟨["hangul", "hang"], ["EQwH3IFd2491ce260Ff0BhClD5uBtuBGNdsRvLYbcm4BcKM91Hu4Bmu35252522"]⟩,
  ⟨["hanifirohingya", "rohg"], ["BR00e030w0E30CTSbB389"]⟩,
  ⟨["hanunoo", "hano"], ["GIgm"]⟩,
  ⟨["hebrew", "hebr"], ["Vj1S0Bi8q45CPBcp1410111119"]⟩,
  ⟨["hiragana", "hira"], ["NDd2491cg510413Cd27Ci1CEDs1Hu4a0B91BWG9Hyi0t2RRx0"]⟩,
  ⟨["inherited", "zinh", "qaai"],
    ["Vr0201b1136202f111h1413BQ81ETfuUzBh1014Ok1FevCIM0fgdBB30CEBuB92mP42h726u3BGVDuGn"]⟩,
  ⟨["javanese", "java"], ["BUJcC51a41"]⟩,
  ⟨["kaithi", "kthi"], ["COu9KBd0BHJi9BCNiBua0"]⟩,
  ⟨["kannada", "knda"], ["CO91h1W2c121m19142812137161132912EIs01160n010BMC35"]⟩,
  ⟨["katakana", "kana"], ["Vh0t0MH12491cg51041Cj33CnGofFsBa1CfCDN11HuBqBWFs3161110Hz2Be0e3"]⟩,
  ⟨["kayahli", "kali"], ["BUFsBb"]⟩,
  ⟨["khojki", "khoj"], ["CZi9BRA89BCY6h1Ba"]⟩,
  ⟨["khudawadi", "sind"], ["COs1BRL69BDD2Bm59"]⟩,
  ⟨["latin", "latn"],
    ["Btp6pBb0c0205m1u1Mg30a01210901064re1110c0227111B20504cHp1BI21CCg0DHgB16Bc535c1BxBl07H3If",
     "0Bt0d0gcCb0Bl160r0hB4CZ3vLb0BHBs7qCt3Bu211017ldIe0O9B61813VTy6BD6p6pCFx51B518CGWtu65"]⟩,
  ⟨["limbu", "limb"], ["COt0EGyu1b4b403b"]⟩,
  ⟨["lineara", "lina"], ["CSHrB8BI4Im9la7"]⟩,
  ⟨["linearb", "linb"], ["CSAgb1p1i111e2dyDe524B838"]⟩,
  ⟨["lisu"], ["Tg0g0MJo1BFYcBbBHOg0"]⟩,
  ⟨["lycian", "lyci"], ["IW20CJW5s"]⟩,
  ⟨["lydian", "lydi"], ["F30MLd0CHWup50"]⟩,
  ⟨["mahajani", "mahj"], ["F30CJobBRKw9BCTaB2"]⟩,
  ⟨["malayalam", "mlym"], ["CO91h1Zmc121Be12154f2pEF60n0BMC52"]⟩,
  ⟨["mandaic", "mand"], ["BSg0O7r20"]⟩,
  ⟨["manichaean", "mani"], ["BSg0CTGfB24b"]⟩,
  ⟨["masaramgondi", "gonm"], ["COs1CXJu6111B730111889"]⟩,
  ⟨["meroitichieroglyphs", "mero"], ["IW50CLTuv"]⟩,
  ⟨["modi"], ["BUA09BEAmBwb9"]⟩,
  ⟨["mongolian", "mong"], ["GOop6Cg7B6CBg0EIh153CKZwc"]⟩,
  ⟨["multani", "mult"], ["CVy9CUFs610131e1a"]⟩,
  ⟨["myanmar", "mymr"], ["EJsEfBPSu0ExuCpvBDQ8j"]⟩,
  ⟨["nandinagari", "nand"], ["COs1Yw9EJl08070BMBx5BFAi72B92a"]⟩,
  ⟨["nko", "nkoo"], ["BR00e030LkBm22CPBy1"]⟩,
  ⟨["olonal", "onao"], ["COs1FAHuB640"]⟩,
  ⟨["oldhungarian", "hung"], ["IW2020DUb0f0CIUeBedBe75"]⟩,
  ⟨["oldpermic", "perm"], ["F30Q8052a0K70CRRwB6"]⟩,
  ⟨["oldturkic", "orkh"], ["IW20DUd0CIRbC0"]⟩,
  ⟨["olduyghur", "ougr"], ["BSg0CTHt0BFxp"]⟩,
  ⟨["oriya", "orya"], ["CO91h1Lf217212l1611142821227241142hETm0n0"]⟩,
  ⟨["osage", "osge"], ["Vd02060C40CSJzz4z"]⟩,
  ⟨["phagspa", "phag"], ["GOq110CG10EIi0BGX1Bj"]⟩,
  ⟨["psalterpahlavi", "phlp"], ["BSg0CTLrh73c6"]⟩,
  ⟨["runic", "runr"], ["GEwCg"]⟩,
  ⟨["samaritan", "samr"], ["CEwB92eKJu0"]⟩,
  ⟨["sharada", "shrd"], ["CO90FIt0102120BMCn520BCUnCn"]⟩,
  ⟨["shavian", "shaw"], ["F30CTA0Bb"]⟩,
  ⟨["sinhala", "sinh"], ["COs1BD721h3n181026304510176922ECl0COZqj"]⟩,
  ⟨["sogdian", "sogd"], ["BSg0CULzB5"]⟩,
  ⟨["sunuwar", "sunu"], ["Vc1109020s030CYT2xe9"]⟩,
  ⟨["sylotinagri", "sylo"], ["COs1Dk9BRG0B8"]⟩,
  ⟨["syriac", "syrc"], ["Vf12110l0227110Ub0e120w0aaq0Dzd1Bn22HkaFX9010"]⟩,
  ⟨["tagalog", "tglg"], ["GHkl90l1"]⟩,
  ⟨["tagbanwa", "tagb"], ["GJ11B5c1211"]⟩,
  ⟨["taile", "tale"], ["Vc15130DPv9CM6t24"]⟩,
  ⟨["takri", "takr"], ["COs1BRL69BEE6Bl69"]⟩,
  ⟨["tamil", "taml"], ["CO91h1P0115321331101131323b4432132060ekEPz0BMI80BDA5010Bj1DKzBdd0"]⟩,
  ⟨["tangut", "tang"], ["NCwfNr0DIYw0vGOf8VbO88"]⟩,
  ⟨["telugu", "telu"], ["CO91h1Sic121m1f281213711220232978EMa0n0"]⟩,
  ⟨["thaana", "thaa"], ["BR00e120Bs9HqBdCPJ40a0"]⟩,
  ⟨["thai"], ["Tg0q0B70B90CYvBl5r"]⟩,
  ⟨["tibetan", "tibt"], ["ECoBz1z4B21z1e1641IUt3"]⟩,
  ⟨["tifinagh", "tfng"], ["Ve0102010LNqBj71e0"]⟩,
  ⟨["tirhuta", "tirh"], ["CO91h1FJ00BMC59BDPyBz89"]⟩,
  ⟨["todhri", "todr"], ["Vd020209010C20CSRdBf"]⟩,
  ⟨["toto"], ["Tg0FBG3u"]⟩,
  ⟨["tulutigalari", "tutg"], ["DNq9EJu010BMC35F70BDDq910201B119102013191181"]⟩,
  ⟨["yezidi", "yezi"], ["BR00e030Bs9CUFyB51221"]⟩,
  ⟨["yi", "yiii"], ["NDd15927G70BEJgBGc3BiYUa4"]⟩]

/-- Names of scripts without a set: an alias for two scripts, and the script of no character. -/
def emptyScriptNames : List String := ["katakanaorhiragana", "hrkt", "unknown", "zzzz"]

/-- The characters of a script, by name. -/
def scriptSet? (name : String) : Option RangeSet := Row.find? scriptRows name

/-- The characters used with a script, by name. -/
def scriptExtensionSet? (name : String) : Option RangeSet :=
  match Row.find? scriptExtensionRows name with
  | some s => some s
  | none => scriptSet? name

end PatternGate.Unicode
