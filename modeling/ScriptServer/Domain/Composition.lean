namespace ScriptServer.Domain

/-!
# Letters with marks

A letter and a mark that follows it may be written as one character.

* `composites`: for each mark, the letters that it joins and the characters that they form.
* `rareComposites`: the same for scripts outside the basic plane, pair by pair.
-/

/-- For a mark, letters that it joins, and in the same order the characters that they form. -/
def composites : List (Nat × String × String) :=
  [(0x0300, "aeinouwyâêôüăēōơưαεηιο", "àèìǹòùẁỳầềồǜằḕṑờừὰὲὴὶὸ"),
   (0x0300, "υωϊϋеиἀἁἐἑἠἡἰἱὀὁὐὑὠὡ", "ὺὼῒῢѐѝἂἃἒἓἢἣἲἳὂὃὒὓὢὣ"),
   (0x0301, "acegiklmnoprsuwyzâåæçê", "áćéǵíḱĺḿńóṕŕśúẃýźấǻǽḉế"),
   (0x0301, "ïôõøüăēōũơưαεηιουωϊϋгк", "ḯốṍǿǘắḗṓṹớứάέήίόύώΐΰѓќ"),
   (0x0301, "ἀἁἐἑἠἡἰἱὀὁὐὑὠὡ", "ἄἅἔἕἤἥἴἵὄὅὔὕὤὥ"), (0x0302, "aceghijosuwyzạẹọ", "âĉêĝĥîĵôŝûŵŷẑậệộ"),
   (0x0303, "aeinouvyâêôăơư", "ãẽĩñõũṽỹẫễỗẵỡữ"),
   (0x0304, "aegiouyäæõöüǫȧȯαιυиуḷṛ", "āēḡīōūȳǟǣȭȫǖǭǡȱᾱῑῡӣӯḹṝ"),
   (0x0306, "aegiouȩαιυаежиуạ", "ăĕğĭŏŭḝᾰῐῠӑӗӂйўặ"),
   (0x0307, "abcdefghmnoprstwxyzśšṣ", "ȧḃċḋėḟġḣṁṅȯṗṙṡṫẇẋẏżṥṧṩ"),
   (0x0308, "aehiotuwxyõūιυаежзиоуч", "äëḧïöẗüẅẍÿṏṻϊϋӓёӝӟӥӧӱӵ"), (0x0308, "ыэіәө", "ӹӭїӛӫ"),
   (0x0309, "aeiouyâêôăơư", "ảẻỉỏủỷẩểổẳởử"), (0x030A, "auwy", "åůẘẙ"), (0x030B, "ouу", "őűӳ"),
   (0x030C, "acdeghijklnorstuzüʒ", "ǎčďěǧȟǐǰǩľňǒřšťǔžǚǯ"), (0x030F, "aeioruѵ", "ȁȅȉȍȑȕѷ"),
   (0x0311, "aeioru", "ȃȇȋȏȓȗ"), (0x0313, "αεηιορυω", "ἀἐἠἰὀῤὐὠ"),
   (0x0314, "αεηιορυω", "ἁἑἡἱὁῥὑὡ"), (0x031B, "ou", "ơư"),
   (0x0323, "abdehiklmnorstuvwyzơư", "ạḅḍẹḥịḳḷṃṇọṛṣṭụṿẉỵẓợự"), (0x0324, "u", "ṳ"),
   (0x0325, "a", "ḁ"), (0x0326, "st", "șț"), (0x0327, "cdeghklnrst", "çḑȩģḩķļņŗşţ"),
   (0x0328, "aeiou", "ąęįǫų"), (0x032D, "delntu", "ḓḙḽṋṱṷ"), (0x032E, "h", "ḫ"),
   (0x0330, "eiu", "ḛḭṵ"), (0x0331, "bdhklnrtz", "ḇḏẖḵḻṉṟṯẕ"),
   (0x0338, "<=>←→↔⇐⇒⇔∃∈∋∣∥∼≃≅≈≍≡≤≥", "≮≠≯↚↛↮⇍⇏⇎∄∉∌∤∦≁≄≇≉≭≢≰≱"),
   (0x0338, "≲≳≶≷≺≻≼≽⊂⊃⊆⊇⊑⊒⊢⊨⊩⊫⊲⊳⊴⊵", "≴≵≸≹⊀⊁⋠⋡⊄⊅⊈⊉⋢⋣⊬⊭⊮⊯⋪⋫⋬⋭"),
   (0x0342, "αηιυωϊϋἀἁἠἡἰἱὐὑὠὡ", "ᾶῆῖῦῶῗῧἆἇἦἧἶἷὖὗὦὧ"), (0x0653, "ا", "آ"),
   (0x0654, "اويہےە", "أؤئۂۓۀ"), (0x0655, "ا", "إ"), (0x093C, "नरळ", "ऩऱऴ"),
   (0x09BE, "\u09c7", "\u09cb"), (0x09D7, "\u09c7", "\u09cc"), (0x0B3E, "\u0b47", "\u0b4b"),
   (0x0B56, "\u0b47", "\u0b48"), (0x0B57, "\u0b47", "\u0b4c"),
   (0x0BBE, "\u0bc6\u0bc7", "\u0bca\u0bcb"), (0x0BD7, "ஒ\u0bc6", "ஔ\u0bcc"),
   (0x0C56, "\u0c46", "\u0c48"), (0x0CC2, "\u0cc6", "\u0cca"),
   (0x0CD5, "\u0cbf\u0cc6\u0cca", "\u0cc0\u0cc7\u0ccb"), (0x0CD6, "\u0cc6", "\u0cc8"),
   (0x0D3E, "\u0d46\u0d47", "\u0d4a\u0d4b"), (0x0D57, "\u0d46", "\u0d4c"),
   (0x0DCA, "\u0dd9\u0ddc", "\u0dda\u0ddd"), (0x0DCF, "\u0dd9", "\u0ddc"),
   (0x0DDF, "\u0dd9", "\u0dde"), (0x102E, "ဥ", "ဦ"),
   (0x1B35, "ᬅᬇᬉᬋᬍᬑ\u1b3a\u1b3c\u1b3e\u1b3f\u1b42", "ᬆᬈᬊᬌᬎᬒ\u1b3b\u1b3d\u1b40\u1b41\u1b43"),
   (0x3099, "うかきくけこさしすせそたちつてとはひふへほゝ", "ゔがぎぐげござじずぜぞだぢづでどばびぶべぼゞ"),
   (0x3099, "ウカキクケコサシスセソタチツテトハヒフヘホワ", "ヴガギグゲゴザジズゼゾダヂヅデドバビブベボヷ"), (0x3099, "ヰヱヲヽ", "ヸヹヺヾ"),
   (0x309A, "はひふへほハヒフヘホ", "ぱぴぷぺぽパピプペポ")]

/-- Two characters and the one that they form. -/
def rareComposites : List (Nat × Nat × Nat) :=
  [(0x105D2, 0x0307, 0x105C9), (0x105DA, 0x0307, 0x105E4), (0x11099, 0x110BA, 0x1109A),
   (0x1109B, 0x110BA, 0x1109C), (0x110A5, 0x110BA, 0x110AB), (0x11131, 0x11127, 0x1112E),
   (0x11132, 0x11127, 0x1112F), (0x11347, 0x1133E, 0x1134B), (0x11347, 0x11357, 0x1134C),
   (0x113C2, 0x113B8, 0x113C7), (0x11384, 0x113BB, 0x11385), (0x1138B, 0x113C2, 0x1138E),
   (0x113C2, 0x113C2, 0x113C5), (0x11382, 0x113C9, 0x11383), (0x11390, 0x113C9, 0x11391),
   (0x113C2, 0x113C9, 0x113C8), (0x114B9, 0x114B0, 0x114BC), (0x114B9, 0x114BA, 0x114BB),
   (0x114B9, 0x114BD, 0x114BE), (0x115B8, 0x115AF, 0x115BA), (0x115B9, 0x115AF, 0x115BB),
   (0x11935, 0x11930, 0x11938), (0x1611E, 0x1611E, 0x16121), (0x1611E, 0x1611F, 0x16123),
   (0x16121, 0x1611F, 0x16126), (0x16122, 0x1611F, 0x16127), (0x16129, 0x1611F, 0x16124),
   (0x1611E, 0x16120, 0x16125), (0x16121, 0x16120, 0x16128), (0x1611E, 0x16129, 0x16122),
   (0x16D63, 0x16D67, 0x16D69), (0x16D67, 0x16D67, 0x16D68), (0x16D69, 0x16D67, 0x16D6A)]

end ScriptServer.Domain
