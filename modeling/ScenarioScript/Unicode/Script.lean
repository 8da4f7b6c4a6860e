import ScenarioScript.Unicode.Run

/-!
# Scripts

Each character belongs to one script, which has a code of four letters.
-/

namespace ScenarioScript.Unicode

def scriptRuns : List Run :=
  Run.decode 4
  [ "65Zyyy26Latn6Zyyy26Latn47ZyyyLatn15ZyyyLatn5Zyyy23LatnZyyy31LatnZyyy449Latn39Zyyy5Latn5Zyyy",
    "2Bopo20Zyyy112Zinh4GrekZyyy3Grek2Zzzz4GrekZyyyGrek4ZzzzGrekZyyyGrekZyyy3GrekZzzzGrekZzzz",
    "20GrekZzzz63Grek14Copt16Grek133Cyrl2Zinh169CyrlZzzz38Armn2Zzzz50Armn2Zzzz3ArmnZzzz55Hebr",
    "8Zzzz27Hebr4Zzzz6Hebr11Zzzz5ArabZyyy6ArabZyyy14ArabZyyy3ArabZyyy32ArabZyyy10Arab11Zinh26Arab",
    "Zinh108ArabZyyy34Arab14SyrcZzzz60Syrc2Zzzz3Syrc48Arab50Thaa14Zzzz59Nkoo2Zzzz3Nkoo46Samr2Zzzz",
    "15SamrZzzz28Mand2ZzzzMandZzzz11Syrc5Zzzz31ArabZzzz2Arab6Zzzz74ArabZyyy29Arab81Deva4Zinh",
    "15Deva2Zyyy26Deva4BengZzzz8Beng2Zzzz2Beng2Zzzz22BengZzzz7BengZzzzBeng3Zzzz4Beng2Zzzz9Beng",
    "2Zzzz2Beng2Zzzz4Beng8ZzzzBeng4Zzzz2BengZzzz5Beng2Zzzz25Beng2Zzzz3GuruZzzz6Guru4Zzzz2Guru",
    "2Zzzz22GuruZzzz7GuruZzzz2GuruZzzz2GuruZzzz2Guru2ZzzzGuruZzzz5Guru4Zzzz2Guru2Zzzz3Guru3Zzzz",
    "Guru7Zzzz4GuruZzzzGuru7Zzzz17Guru10Zzzz3GujrZzzz9GujrZzzz3GujrZzzz22GujrZzzz7GujrZzzz2Gujr",
    "Zzzz5Gujr2Zzzz10GujrZzzz3GujrZzzz3Gujr2ZzzzGujr15Zzzz4Gujr2Zzzz12Gujr7Zzzz7GujrZzzz3OryaZzzz",
    "8Orya2Zzzz2Orya2Zzzz22OryaZzzz7OryaZzzz2OryaZzzz5Orya2Zzzz9Orya2Zzzz2Orya2Zzzz3Orya7Zzzz",
    "3Orya4Zzzz2OryaZzzz5Orya2Zzzz18Orya10Zzzz2TamlZzzz6Taml3Zzzz3TamlZzzz4Taml3Zzzz2TamlZzzzTaml",
    "Zzzz2Taml3Zzzz2Taml3Zzzz3Taml3Zzzz12Taml4Zzzz5Taml3Zzzz3TamlZzzz4Taml2ZzzzTaml6ZzzzTaml",
    "14Zzzz21Taml5Zzzz13TeluZzzz3TeluZzzz23TeluZzzz16Telu2Zzzz9TeluZzzz3TeluZzzz4Telu7Zzzz2Telu",
    "Zzzz3Telu2ZzzzTelu2Zzzz4Telu2Zzzz10Telu7Zzzz9Telu13KndaZzzz3KndaZzzz23KndaZzzz10KndaZzzz",
    "5Knda2Zzzz9KndaZzzz3KndaZzzz4Knda7Zzzz2Knda6Zzzz2KndaZzzz4Knda2Zzzz10KndaZzzz3Knda12Zzzz",
    "13MlymZzzz3MlymZzzz51MlymZzzz3MlymZzzz6Mlym4Zzzz16Mlym2Zzzz26MlymZzzz3SinhZzzz18Sinh3Zzzz",
    "24SinhZzzz9SinhZzzzSinh2Zzzz7Sinh3ZzzzSinh4Zzzz6SinhZzzzSinhZzzz8Sinh6Zzzz10Sinh2Zzzz3Sinh",
    "12Zzzz58Thai4ZzzzZyyy28Thai37Zzzz2LaooZzzzLaooZzzz5LaooZzzz24LaooZzzzLaooZzzz23Laoo2Zzzz",
    "5LaooZzzzLaooZzzz7LaooZzzz10Laoo2Zzzz4Laoo32Zzzz72TibtZzzz36Tibt4Zzzz39TibtZzzz36TibtZzzz",
    "15TibtZzzz7Tibt4Zyyy2Tibt37Zzzz160Mymr38GeorZzzzGeor5ZzzzGeor2Zzzz43GeorZyyy4Geor256Hang",
    "73EthiZzzz4Ethi2Zzzz7EthiZzzzEthiZzzz4Ethi2Zzzz41EthiZzzz4Ethi2Zzzz33EthiZzzz4Ethi2Zzzz7Ethi",
    "ZzzzEthiZzzz4Ethi2Zzzz15EthiZzzz57EthiZzzz4Ethi2Zzzz67Ethi2Zzzz32Ethi3Zzzz26Ethi6Zzzz86Cher",
    "2Zzzz6Cher2Zzzz640Cans29Ogam3Zzzz75Runr3Zyyy11Runr7Zzzz22Tglg9ZzzzTglg21Hano2Zyyy9Zzzz20Buhd",
    "12Zzzz13TagbZzzz3TagbZzzz2Tagb12Zzzz94Khmr2Zzzz10Khmr6Zzzz10Khmr6Zzzz2Mong2ZyyyMongZyyy",
    "20Mong6Zzzz89Mong7Zzzz43Mong5Zzzz70Cans10Zzzz31LimbZzzz12Limb4Zzzz12Limb4ZzzzLimb3Zzzz12Limb",
    "30Tale2Zzzz5Tale11Zzzz44Talu4Zzzz26Talu6Zzzz11Talu3Zzzz2Talu32Khmr28Bugi2Zzzz2Bugi63LanaZzzz",
    "29Lana2Zzzz11Lana6Zzzz10Lana6Zzzz14Lana2Zzzz31Zinh49Zzzz77Bali3Zzzz47BaliZzzz64Sund52Batk",
    "8Zzzz4Batk56Lepc3Zzzz15Lepc3Zzzz3Lepc48Olck9Cyrl7Zzzz43Geor2Zzzz3Geor8Sund8Zzzz3ZinhZyyy",
    "13ZinhZyyy7Zinh4ZyyyZinh6ZyyyZinh3Zyyy2ZinhZyyy5Zzzz38Latn5GrekCyrl49Latn5Grek4Latn5Grek",
    "13LatnCyrl70LatnGrek64Zinh256Latn22Grek2Zzzz6Grek2Zzzz38Grek2Zzzz6Grek2Zzzz8GrekZzzzGrekZzzz",
    "GrekZzzzGrekZzzz31Grek2Zzzz53GrekZzzz15GrekZzzz14Grek2Zzzz6GrekZzzz19Grek2Zzzz3GrekZzzz9Grek",
    "Zzzz12Zyyy2Zinh87ZyyyZzzz11ZyyyLatn2Zzzz11ZyyyLatn15ZyyyZzzz13Latn3Zzzz33Zyyy15Zzzz33Zinh",
    "15Zzzz38ZyyyGrek3Zyyy2Latn6ZyyyLatn27ZyyyLatn17Zyyy41Latn3Zyyy4Zzzz663Zyyy25Zzzz11Zyyy21Zzzz",
    "928Zyyy256Brai628Zyyy2Zzzz32ZyyyZzzz105Zyyy96Glag32Latn116Copt5Zzzz7Copt38GeorZzzzGeor5Zzzz",
    "Geor2Zzzz56Tfng7Zzzz2Tfng14ZzzzTfng23Ethi9Zzzz7EthiZzzz7EthiZzzz7EthiZzzz7EthiZzzz7EthiZzzz",
    "7EthiZzzz7EthiZzzz7EthiZzzz32Cyrl94Zyyy34Zzzz26HaniZzzz89Hani12Zzzz214Hani26Zzzz12Zyyy4Zzzz",
    "5ZyyyHaniZyyyHani25Zyyy9Hani4Zinh2Hang8Zyyy4Hani4ZyyyZzzz86Hira2Zzzz2Zinh2Zyyy3HiraZyyy",
    "90Kana2Zyyy3Kana5Zzzz43BopoZzzz94HangZzzz16Zyyy32Bopo36Zyyy12Zzzz16Kana31HangZzzz64Zyyy",
    "31Hang81Zyyy47KanaZyyy88Kana168Zyyy6592Hani64Zyyy20992Hani1165Yiii3Zzzz55Yiii9Zzzz48Lisu",
    "300Vaii20Zzzz96Cyrl88Bamu8Zzzz34Zyyy102Latn3Zyyy64Latn5Zzzz2LatnZzzzLatnZzzz5Latn24Zzzz",
    "14Latn45Sylo3Zzzz10Zyyy6Zzzz56Phag8Zzzz70Saur8Zzzz12Saur6Zzzz32Deva46KaliZyyyKali36Rjng",
    "11ZzzzRjng29Hang3Zzzz78JavaZzzzZyyy10Java4Zzzz2Java31MymrZzzz55Cham9Zzzz14Cham2Zzzz10Cham",
    "2Zzzz4Cham32Mymr67Tavt24Zzzz5Tavt23Mtei10Zzzz6Ethi2Zzzz6Ethi2Zzzz6Ethi9Zzzz7EthiZzzz7Ethi",
    "Zzzz43LatnZyyy9LatnGrek4Latn2Zyyy4Zzzz80Cher46Mtei2Zzzz10Mtei6Zzzz11172Hang12Zzzz23Hang4Zzzz",
    "49Hang8452Zzzz366Hani2Zzzz106Hani38Zzzz7Latn12Zzzz5Armn5Zzzz26HebrZzzz5HebrZzzzHebrZzzz2Hebr",
    "Zzzz2HebrZzzz10Hebr115Arab16Zzzz363Arab2Zyyy80Arab2Zzzz54Arab7ZzzzArab32Zzzz16Arab16Zinh",
    "10Zyyy6Zzzz14Zinh2Cyrl35ZyyyZzzz19ZyyyZzzz4Zyyy4Zzzz5ArabZzzz135Arab2ZzzzZyyyZzzz32Zyyy",
    "26Latn6Zyyy26Latn11Zyyy10KanaZyyy45Kana2Zyyy31Hang3Zzzz6Hang2Zzzz6Hang2Zzzz6Hang2Zzzz3Hang",
    "3Zzzz7ZyyyZzzz7Zyyy10Zzzz5Zyyy2Zzzz12LinbZzzz26LinbZzzz19LinbZzzz2LinbZzzz15Linb2Zzzz14Linb",
    "34Zzzz123Linb5Zzzz3Zyyy4Zzzz45Zyyy3Zzzz9Zyyy79GrekZzzz13Zyyy3ZzzzGrek47Zzzz45ZyyyZinh130Zzzz",
    "29Lyci3Zzzz49Cari15ZzzzZinh27Zyyy4Zzzz36Ital9Zzzz3Ital27Goth5Zzzz43Perm5Zzzz30UgarZzzzUgar",
    "36Xpeo4Zzzz14Xpeo42Zzzz80Dsrt48Shaw30Osma2Zzzz10Osma6Zzzz36Osge4Zzzz36Osge4Zzzz40Elba8Zzzz",
    "52Aghb11ZzzzAghb11VithZzzz15VithZzzz7VithZzzz2VithZzzz11VithZzzz15VithZzzz7VithZzzz2Vith",
    "67Zzzz311Lina9Zzzz22Lina10Zzzz8Lina24Zzzz6LatnZzzz42LatnZzzz9Latn69Zzzz6Cprt2ZzzzCprtZzzz",
    "44CprtZzzz2Cprt3ZzzzCprt2ZzzzCprt22ArmiZzzz9Armi32Palm31Nbat8Zzzz9Nbat48Zzzz19HatrZzzz2Hatr",
    "5Zzzz5Hatr28Phnx3ZzzzPhnx26Lydi5ZzzzLydi64Zzzz32Mero24Merc4Zzzz20Merc2Zzzz46Merc4KharZzzz",
    "2Khar5Zzzz8KharZzzz3KharZzzz29Khar2Zzzz3Khar4Zzzz10Khar7Zzzz9Khar7Zzzz32Sarb32Narb32Zzzz",
    "39Mani4Zzzz12Mani9Zzzz54Avst3Zzzz7Avst22Prti2Zzzz8Prti19Phli5Zzzz8Phli18Phlp7Zzzz4Phlp12Zzzz",
    "7Phlp80Zzzz73Orkh55Zzzz51Hung13Zzzz51Hung7Zzzz6Hung40Rohg8Zzzz10Rohg294Zzzz31ArabZzzz42Yezi",
    "Zzzz3Yezi2Zzzz2Yezi75Zzzz3Arab40Sogo8Zzzz42Sogd22Zzzz26Ougr38Zzzz28Chrs20Zzzz23Elym9Zzzz",
    "78Brah4Zzzz36Brah9ZzzzBrah67Kthi10ZzzzKthi2Zzzz25Sora7Zzzz10Sora6Zzzz53CakmZzzz18Cakm8Zzzz",
    "39Mahj9Zzzz96ShrdZzzz20Sinh11Zzzz18KhojZzzz47Khoj62Zzzz7MultZzzzMultZzzz4MultZzzz15MultZzzz",
    "11Mult6Zzzz59Sind5Zzzz10Sind6Zzzz4GranZzzz8Gran2Zzzz2Gran2Zzzz22GranZzzz7GranZzzz2GranZzzz",
    "5GranZzzzZinh9Gran2Zzzz2Gran2Zzzz3Gran2ZzzzGran6ZzzzGran5Zzzz7Gran2Zzzz7Gran3Zzzz5Gran",
    "139Zzzz92NewaZzzz5Newa30Zzzz72Tirh8Zzzz10Tirh166Zzzz54Sidd2Zzzz38Sidd34Zzzz69Modi11Zzzz",
    "10Modi6Zzzz13Mong19Zzzz58Takr6Zzzz10Takr54Zzzz27Ahom2Zzzz15Ahom4Zzzz23Ahom185Zzzz60Dogr",
    "100Zzzz83Wara12ZzzzWara7Diak2ZzzzDiak2Zzzz8DiakZzzz2DiakZzzz30DiakZzzz2Diak2Zzzz12Diak9Zzzz",
    "10Diak70Zzzz8Nand2Zzzz46Nand2Zzzz11Nand27Zzzz72Zanb8Zzzz83Soyo13Zzzz16Cans57Pauc7Zzzz10Deva",
    "246Zzzz9BhksZzzz45BhksZzzz14Bhks10Zzzz29Bhks3Zzzz32Marc2Zzzz22MarcZzzz14Marc73Zzzz7GonmZzzz",
    "2GonmZzzz44Gonm3ZzzzGonmZzzz2GonmZzzz9Gonm8Zzzz10Gonm6Zzzz6GongZzzz2GongZzzz37GongZzzz2Gong",
    "Zzzz6Gong7Zzzz10Gong310Zzzz25Maka7Zzzz17KawiZzzz41Kawi3Zzzz28Kawi86ZzzzLisu15Zzzz50Taml",
    "13ZzzzTaml922Xsux102Zzzz111XsuxZzzz5Xsux11Zzzz196Xsux2636Zzzz99Cpmn13Zzzz1110Egyp4010Zzzz",
    "583Hluw8633Zzzz569Bamu7Zzzz31MrooZzzz10Mroo4Zzzz2Mroo79TnsaZzzz10Tnsa6Zzzz30Bass2Zzzz6Bass",
    "10Zzzz70Hmng10Zzzz10HmngZzzz7HmngZzzz21Hmng5Zzzz19Hmng688Zzzz91Medf101Zzzz75Plrd4Zzzz57Plrd",
    "7Zzzz17Plrd64ZzzzTangNshu2HaniKits11Zzzz2Hani14Zzzz6136Tang8Zzzz768Tang470Kits42Zzzz9Tang",
    "8935Zzzz4KanaZzzz7KanaZzzz2KanaZzzzKana287Hira3Kana15ZzzzHira29Zzzz3Hira2ZzzzKana14Zzzz4Kana",
    "8Zzzz396Nshu2308Zzzz107Dupl5Zzzz13Dupl3Zzzz9Dupl7Zzzz10Dupl2Zzzz4Dupl4Zyyy4700Zzzz46Zinh",
    "2Zzzz23Zinh9Zzzz116Zyyy60Zzzz246Zyyy10Zzzz39Zyyy2Zzzz62Zyyy3Zinh17Zyyy8Zinh2Zyyy7Zinh30Zyyy",
    "4Zinh61Zyyy21Zzzz70Grek122Zzzz20Zyyy12Zzzz20Zyyy12Zzzz87Zyyy9Zzzz25Zyyy135Zzzz85ZyyyZzzz",
    "71ZyyyZzzz2Zyyy2ZzzzZyyy2Zzzz2Zyyy2Zzzz4ZyyyZzzz12ZyyyZzzzZyyyZzzz7ZyyyZzzz65ZyyyZzzz4Zyyy",
    "2Zzzz8ZyyyZzzz7ZyyyZzzz28ZyyyZzzz4ZyyyZzzz5ZyyyZzzzZyyy3Zzzz7ZyyyZzzz340Zyyy2Zzzz292Zyyy",
    "2Zzzz50Zyyy652Sgnw15Zzzz5SgnwZzzz15Sgnw1104Zzzz31Latn6Zzzz6Latn213Zzzz7GlagZzzz17Glag2Zzzz",
    "7GlagZzzz2GlagZzzz5Glag5Zzzz62Cyrl33ZzzzCyrl112Zzzz45Hmnp3Zzzz14Hmnp2Zzzz10Hmnp4Zzzz2Hmnp",
    "320Zzzz31Toto17Zzzz58Wcho5ZzzzWcho464Zzzz42Nagm742Zzzz7EthiZzzz4EthiZzzz2EthiZzzz15EthiZzzz",
    "197Mend2Zzzz16Mend41Zzzz76Adlm4Zzzz10Adlm4Zzzz2Adlm785Zzzz68Zyyy76Zzzz61Zyyy194Zzzz4ArabZzzz",
    "27ArabZzzz2ArabZzzzArab2ZzzzArabZzzz10ArabZzzz4ArabZzzzArabZzzzArab6ZzzzArab4ZzzzArabZzzz",
    "ArabZzzzArabZzzz3ArabZzzz2ArabZzzzArab2ZzzzArabZzzzArabZzzzArabZzzzArabZzzzArabZzzz2ArabZzzz",
    "Arab2Zzzz4ArabZzzz7ArabZzzz4ArabZzzz4ArabZzzzArabZzzz10ArabZzzz17Arab5Zzzz3ArabZzzz5ArabZzzz",
    "17Arab52Zzzz2Arab270Zzzz44Zyyy4Zzzz100Zyyy12Zzzz15Zyyy2Zzzz15ZyyyZzzz15ZyyyZzzz37Zyyy10Zzzz",
    "174Zyyy56Zzzz26ZyyyHira2Zyyy13Zzzz44Zyyy4Zzzz9Zyyy7Zzzz2Zyyy14Zzzz6Zyyy154Zzzz984Zyyy4Zzzz",
    "17Zyyy3Zzzz13Zyyy3Zzzz119Zyyy4Zzzz95Zyyy6Zzzz12Zyyy4ZzzzZyyy15Zzzz12Zyyy4Zzzz56Zyyy8Zzzz",
    "10Zyyy6Zzzz40Zyyy8Zzzz30Zyyy2Zzzz2Zyyy78Zzzz340Zyyy12Zzzz14Zyyy2Zzzz13Zyyy3Zzzz9Zyyy7Zzzz",
    "46ZyyyZzzz7Zyyy8Zzzz14Zyyy4Zzzz9Zyyy7Zzzz9Zyyy7Zzzz147ZyyyZzzz55Zyyy37Zzzz10Zyyy1030Zzzz",
    "42720Hani32Zzzz4154Hani6Zzzz222Hani2Zzzz5762Hani14Zzzz7473Hani3103Zzzz542Hani1506Zzzz",
    "4939Hani5Zzzz4192Hani711761ZzzzZyyy30Zzzz96Zyyy128Zzzz240Zinh196112Zzzz"]

def script (c : Char) : String := Run.tagAt scriptRuns c.toNat

/-- The names and codes of scripts, in small letters and without separators. -/
def scriptNames : List (String × String) :=
  [ ("adlm", "Adlm"), ("adlam", "Adlm"), ("aghb", "Aghb"),
    ("caucasianalbanian", "Aghb"), ("ahom", "Ahom"), ("arab", "Arab"),
    ("arabic", "Arab"), ("armi", "Armi"), ("imperialaramaic", "Armi"),
    ("armn", "Armn"), ("armenian", "Armn"), ("avst", "Avst"),
    ("avestan", "Avst"), ("bali", "Bali"), ("balinese", "Bali"),
    ("bamu", "Bamu"), ("bamum", "Bamu"), ("bass", "Bass"),
    ("bassavah", "Bass"), ("batk", "Batk"), ("batak", "Batk"),
    ("beng", "Beng"), ("bengali", "Beng"), ("bhks", "Bhks"),
    ("bhaiksuki", "Bhks"), ("bopo", "Bopo"), ("bopomofo", "Bopo"),
    ("brah", "Brah"), ("brahmi", "Brah"), ("brai", "Brai"),
    ("braille", "Brai"), ("bugi", "Bugi"), ("buginese", "Bugi"),
    ("buhd", "Buhd"), ("buhid", "Buhd"), ("cakm", "Cakm"),
    ("chakma", "Cakm"), ("cans", "Cans"), ("canadianaboriginal", "Cans"),
    ("cari", "Cari"), ("carian", "Cari"), ("cham", "Cham"),
    ("cher", "Cher"), ("cherokee", "Cher"), ("chrs", "Chrs"),
    ("chorasmian", "Chrs"), ("copt", "Copt"), ("coptic", "Copt"),
    ("qaac", "Copt"), ("cpmn", "Cpmn"), ("cyprominoan", "Cpmn"),
    ("cprt", "Cprt"), ("cypriot", "Cprt"), ("cyrl", "Cyrl"),
    ("cyrillic", "Cyrl"), ("deva", "Deva"), ("devanagari", "Deva"),
    ("diak", "Diak"), ("divesakuru", "Diak"), ("dogr", "Dogr"),
    ("dogra", "Dogr"), ("dsrt", "Dsrt"), ("deseret", "Dsrt"),
    ("dupl", "Dupl"), ("duployan", "Dupl"), ("egyp", "Egyp"),
    ("egyptianhieroglyphs", "Egyp"), ("elba", "Elba"), ("elbasan", "Elba"),
    ("elym", "Elym"), ("elymaic", "Elym"), ("ethi", "Ethi"),
    ("ethiopic", "Ethi"), ("geor", "Geor"), ("georgian", "Geor"),
    ("glag", "Glag"), ("glagolitic", "Glag"), ("gong", "Gong"),
    ("gunjalagondi", "Gong"), ("gonm", "Gonm"), ("masaramgondi", "Gonm"),
    ("goth", "Goth"), ("gothic", "Goth"), ("gran", "Gran"),
    ("grantha", "Gran"), ("grek", "Grek"), ("greek", "Grek"),
    ("gujr", "Gujr"), ("gujarati", "Gujr"), ("guru", "Guru"),
    ("gurmukhi", "Guru"), ("hang", "Hang"), ("hangul", "Hang"),
    ("hani", "Hani"), ("han", "Hani"), ("hano", "Hano"),
    ("hanunoo", "Hano"), ("hatr", "Hatr"), ("hatran", "Hatr"),
    ("hebr", "Hebr"), ("hebrew", "Hebr"), ("hira", "Hira"),
    ("hiragana", "Hira"), ("hluw", "Hluw"), ("anatolianhieroglyphs", "Hluw"),
    ("hmng", "Hmng"), ("pahawhhmong", "Hmng"), ("hmnp", "Hmnp"),
    ("nyiakengpuachuehmong", "Hmnp"), ("hung", "Hung"), ("oldhungarian", "Hung"),
    ("ital", "Ital"), ("olditalic", "Ital"), ("java", "Java"),
    ("javanese", "Java"), ("kali", "Kali"), ("kayahli", "Kali"),
    ("kana", "Kana"), ("katakana", "Kana"), ("kawi", "Kawi"),
    ("khar", "Khar"), ("kharoshthi", "Khar"), ("khmr", "Khmr"),
    ("khmer", "Khmr"), ("khoj", "Khoj"), ("khojki", "Khoj"),
    ("kits", "Kits"), ("khitansmallscript", "Kits"), ("knda", "Knda"),
    ("kannada", "Knda"), ("kthi", "Kthi"), ("kaithi", "Kthi"),
    ("lana", "Lana"), ("taitham", "Lana"), ("laoo", "Laoo"),
    ("lao", "Laoo"), ("latn", "Latn"), ("latin", "Latn"),
    ("lepc", "Lepc"), ("lepcha", "Lepc"), ("limb", "Limb"),
    ("limbu", "Limb"), ("lina", "Lina"), ("lineara", "Lina"),
    ("linb", "Linb"), ("linearb", "Linb"), ("lisu", "Lisu"),
    ("lyci", "Lyci"), ("lycian", "Lyci"), ("lydi", "Lydi"),
    ("lydian", "Lydi"), ("mahj", "Mahj"), ("mahajani", "Mahj"),
    ("maka", "Maka"), ("makasar", "Maka"), ("mand", "Mand"),
    ("mandaic", "Mand"), ("mani", "Mani"), ("manichaean", "Mani"),
    ("marc", "Marc"), ("marchen", "Marc"), ("medf", "Medf"),
    ("medefaidrin", "Medf"), ("mend", "Mend"), ("mendekikakui", "Mend"),
    ("merc", "Merc"), ("meroiticcursive", "Merc"), ("mero", "Mero"),
    ("meroitichieroglyphs", "Mero"), ("mlym", "Mlym"), ("malayalam", "Mlym"),
    ("modi", "Modi"), ("mong", "Mong"), ("mongolian", "Mong"),
    ("mroo", "Mroo"), ("mro", "Mroo"), ("mtei", "Mtei"),
    ("meeteimayek", "Mtei"), ("mult", "Mult"), ("multani", "Mult"),
    ("mymr", "Mymr"), ("myanmar", "Mymr"), ("nagm", "Nagm"),
    ("nagmundari", "Nagm"), ("nand", "Nand"), ("nandinagari", "Nand"),
    ("narb", "Narb"), ("oldnortharabian", "Narb"), ("nbat", "Nbat"),
    ("nabataean", "Nbat"), ("newa", "Newa"), ("nkoo", "Nkoo"),
    ("nko", "Nkoo"), ("nshu", "Nshu"), ("nushu", "Nshu"),
    ("ogam", "Ogam"), ("ogham", "Ogam"), ("olck", "Olck"),
    ("olchiki", "Olck"), ("orkh", "Orkh"), ("oldturkic", "Orkh"),
    ("orya", "Orya"), ("oriya", "Orya"), ("osge", "Osge"),
    ("osage", "Osge"), ("osma", "Osma"), ("osmanya", "Osma"),
    ("ougr", "Ougr"), ("olduyghur", "Ougr"), ("palm", "Palm"),
    ("palmyrene", "Palm"), ("pauc", "Pauc"), ("paucinhau", "Pauc"),
    ("perm", "Perm"), ("oldpermic", "Perm"), ("phag", "Phag"),
    ("phagspa", "Phag"), ("phli", "Phli"), ("inscriptionalpahlavi", "Phli"),
    ("phlp", "Phlp"), ("psalterpahlavi", "Phlp"), ("phnx", "Phnx"),
    ("phoenician", "Phnx"), ("plrd", "Plrd"), ("miao", "Plrd"),
    ("prti", "Prti"), ("inscriptionalparthian", "Prti"), ("rjng", "Rjng"),
    ("rejang", "Rjng"), ("rohg", "Rohg"), ("hanifirohingya", "Rohg"),
    ("runr", "Runr"), ("runic", "Runr"), ("samr", "Samr"),
    ("samaritan", "Samr"), ("sarb", "Sarb"), ("oldsoutharabian", "Sarb"),
    ("saur", "Saur"), ("saurashtra", "Saur"), ("sgnw", "Sgnw"),
    ("signwriting", "Sgnw"), ("shaw", "Shaw"), ("shavian", "Shaw"),
    ("shrd", "Shrd"), ("sharada", "Shrd"), ("sidd", "Sidd"),
    ("siddham", "Sidd"), ("sind", "Sind"), ("khudawadi", "Sind"),
    ("sinh", "Sinh"), ("sinhala", "Sinh"), ("sogd", "Sogd"),
    ("sogdian", "Sogd"), ("sogo", "Sogo"), ("oldsogdian", "Sogo"),
    ("sora", "Sora"), ("sorasompeng", "Sora"), ("soyo", "Soyo"),
    ("soyombo", "Soyo"), ("sund", "Sund"), ("sundanese", "Sund"),
    ("sylo", "Sylo"), ("sylotinagri", "Sylo"), ("syrc", "Syrc"),
    ("syriac", "Syrc"), ("tagb", "Tagb"), ("tagbanwa", "Tagb"),
    ("takr", "Takr"), ("takri", "Takr"), ("tale", "Tale"),
    ("taile", "Tale"), ("talu", "Talu"), ("newtailue", "Talu"),
    ("taml", "Taml"), ("tamil", "Taml"), ("tang", "Tang"),
    ("tangut", "Tang"), ("tavt", "Tavt"), ("taiviet", "Tavt"),
    ("telu", "Telu"), ("telugu", "Telu"), ("tfng", "Tfng"),
    ("tifinagh", "Tfng"), ("tglg", "Tglg"), ("tagalog", "Tglg"),
    ("thaa", "Thaa"), ("thaana", "Thaa"), ("thai", "Thai"),
    ("tibt", "Tibt"), ("tibetan", "Tibt"), ("tirh", "Tirh"),
    ("tirhuta", "Tirh"), ("tnsa", "Tnsa"), ("tangsa", "Tnsa"),
    ("toto", "Toto"), ("ugar", "Ugar"), ("ugaritic", "Ugar"),
    ("vaii", "Vaii"), ("vai", "Vaii"), ("vith", "Vith"),
    ("vithkuqi", "Vith"), ("wara", "Wara"), ("warangciti", "Wara"),
    ("wcho", "Wcho"), ("wancho", "Wcho"), ("xpeo", "Xpeo"),
    ("oldpersian", "Xpeo"), ("xsux", "Xsux"), ("cuneiform", "Xsux"),
    ("yezi", "Yezi"), ("yezidi", "Yezi"), ("yiii", "Yiii"),
    ("yi", "Yiii"), ("zanb", "Zanb"), ("zanabazarsquare", "Zanb"),
    ("zinh", "Zinh"), ("inherited", "Zinh"), ("qaai", "Zinh"),
    ("zyyy", "Zyyy"), ("common", "Zyyy"), ("zzzz", "Zzzz"),
    ("unknown", "Zzzz")]

end ScenarioScript.Unicode
