import Stencil.Text.Split

/-!
# Composites

Characters of names that can be written as two: a base and a mark after it. The base may be a
composite again; the mark never is.
-/

namespace Stencil.Url.Domain

/-- A character, and the two that it is made of. -/
structure Composite where
  whole : Char
  base : Char
  mark : Char

/-- The composites as words of three: the whole, its base and its mark. Each stands before
its base. -/
def compositeWords : List String :=
  ["ǖǖ ǘǘ ǚǚ ǜǜ ǟǟ ǡǡ ǭǭ ǻǻ ȫȫ ȭȭ ȱȱ ΐΐ ΰΰ ೋೋ ෝෝ ḉḉ ḕḕ ḗḗ ḝḝ ḯḯ ḹḹ ṍṍ ṏṏ",
    "ṑṑ ṓṓ ṝṝ ṥṥ ṧṧ ṩṩ ṹṹ ṻṻ ấấ ầầ ẩẩ ẫẫ ậậ ắắ ằằ ẳẳ ẵẵ ặặ ếế ềề ểể ễễ ệệ",
    "ốố ồồ ổổ ỗỗ ộộ ớớ ờờ ởở ỡỡ ợợ ứứ ừừ ửử ữữ ựự ἂἂ ἃἃ ἄἄ ἅἅ ἆἆ ἇἇ ἒἒ ἓἓ",
    "ἔἔ ἕἕ ἢἢ ἣἣ ἤἤ ἥἥ ἦἦ ἧἧ ἲἲ ἳἳ ἴἴ ἵἵ ἶἶ ἷἷ ὂὂ ὃὃ ὄὄ ὅὅ ὒὒ ὓὓ ὔὔ ὕὕ ὖὖ",
    "ὗὗ ὢὢ ὣὣ ὤὤ ὥὥ ὦὦ ὧὧ ῒῒ ῗῗ ῢῢ ῧῧ 𖄦𖄦 𖄧𖄧 𖄨𖄨 𖵪𖵪 àà áá ââ ãã ää åå çç èè",
    "éé êê ëë ìì íí îî ïï ññ òò óó ôô õõ öö ùù úú ûû üü ýý ÿÿ āā ăă ąą ćć",
    "ĉĉ ċċ čč ďď ēē ĕĕ ėė ęę ěě ĝĝ ğğ ġġ ģģ ĥĥ ĩĩ īī ĭĭ įį ĵĵ ķķ ĺĺ ļļ ľľ",
    "ńń ņņ ňň ōō ŏŏ őő ŕŕ ŗŗ řř śś ŝŝ şş šš ţţ ťť ũũ ūū ŭŭ ůů űű ųų ŵŵ ŷŷ",
    "źź żż žž ơơ ưư ǎǎ ǐǐ ǒǒ ǔǔ ǣǣ ǧǧ ǩǩ ǫǫ ǯǯ ǰǰ ǵǵ ǹǹ ǽǽ ǿǿ ȁȁ ȃȃ ȅȅ ȇȇ",
    "ȉȉ ȋȋ ȍȍ ȏȏ ȑȑ ȓȓ ȕȕ ȗȗ șș țț ȟȟ ȧȧ ȩȩ ȯȯ ȳȳ άά έέ ήή ίί ϊϊ ϋϋ όό ύύ",
    "ώώ йй ѐѐ ёё ѓѓ її ќќ ѝѝ ўў ѷѷ ӂӂ ӑӑ ӓӓ ӗӗ ӛӛ ӝӝ ӟӟ ӣӣ ӥӥ ӧӧ ӫӫ ӭӭ ӯӯ",
    "ӱӱ ӳӳ ӵӵ ӹӹ آآ أأ ؤؤ إإ ئئ ۀۀ ۂۂ ۓۓ ऩऩ ऱऱ ऴऴ োো ৌৌ ୈୈ ୋୋ ୌୌ ஔஔ ொொ ோோ",
    "ௌௌ ైై ೀೀ ೇೇ ೈೈ ೊೊ ൊൊ ോോ ൌൌ ේේ ොො ෞෞ ဦဦ ᬆᬆ ᬈᬈ ᬊᬊ ᬌᬌ ᬎᬎ ᬒᬒ ᬻᬻ ᬽᬽ ᭀᭀ ᭁᭁ",
    "ᭃᭃ ḁḁ ḃḃ ḅḅ ḇḇ ḋḋ ḍḍ ḏḏ ḑḑ ḓḓ ḙḙ ḛḛ ḟḟ ḡḡ ḣḣ ḥḥ ḧḧ ḩḩ ḫḫ ḭḭ ḱḱ ḳḳ ḵḵ",
    "ḷḷ ḻḻ ḽḽ ḿḿ ṁṁ ṃṃ ṅṅ ṇṇ ṉṉ ṋṋ ṕṕ ṗṗ ṙṙ ṛṛ ṟṟ ṡṡ ṣṣ ṫṫ ṭṭ ṯṯ ṱṱ ṳṳ ṵṵ",
    "ṷṷ ṽṽ ṿṿ ẁẁ ẃẃ ẅẅ ẇẇ ẉẉ ẋẋ ẍẍ ẏẏ ẑẑ ẓẓ ẕẕ ẖẖ ẗẗ ẘẘ ẙẙ ạạ ảả ẹẹ ẻẻ ẽẽ",
    "ỉỉ ịị ọọ ỏỏ ụụ ủủ ỳỳ ỵỵ ỷỷ ỹỹ ἀἀ ἁἁ ἐἐ ἑἑ ἠἠ ἡἡ ἰἰ ἱἱ ὀὀ ὁὁ ὐὐ ὑὑ ὠὠ",
    "ὡὡ ὰὰ ὲὲ ὴὴ ὶὶ ὸὸ ὺὺ ὼὼ ᾰᾰ ᾱᾱ ᾶᾶ ῆῆ ῐῐ ῑῑ ῖῖ ῠῠ ῡῡ ῤῤ ῥῥ ῦῦ ῶῶ ↚↚ ↛↛",
    "↮↮ ⇍⇍ ⇎⇎ ⇏⇏ ∄∄ ∉∉ ∌∌ ∤∤ ∦∦ ≁≁ ≄≄ ≇≇ ≉≉ ≠≠ ≢≢ ≭≭ ≮≮ ≯≯ ≰≰ ≱≱ ≴≴ ≵≵ ≸≸",
    "≹≹ ⊀⊀ ⊁⊁ ⊄⊄ ⊅⊅ ⊈⊈ ⊉⊉ ⊬⊬ ⊭⊭ ⊮⊮ ⊯⊯ ⋠⋠ ⋡⋡ ⋢⋢ ⋣⋣ ⋪⋪ ⋫⋫ ⋬⋬ ⋭⋭ がが ぎぎ ぐぐ げげ",
    "ごご ざざ じじ ずず ぜぜ ぞぞ だだ ぢぢ づづ でで どど ばば ぱぱ びび ぴぴ ぶぶ ぷぷ べべ ぺぺ ぼぼ ぽぽ ゔゔ ゞゞ",
    "ガガ ギギ ググ ゲゲ ゴゴ ザザ ジジ ズズ ゼゼ ゾゾ ダダ ヂヂ ヅヅ デデ ドド ババ パパ ビビ ピピ ブブ ププ ベベ ペペ",
    "ボボ ポポ ヴヴ ヷヷ ヸヸ ヹヹ ヺヺ ヾヾ 𐗉𐗉 𐗤𐗤 𑂚𑂚 𑂜𑂜 𑂫𑂫 𑄮𑄮 𑄯𑄯 𑍋𑍋 𑍌𑍌 𑎃𑎃 𑎅𑎅 𑎎𑎎 𑎑𑎑 𑏅𑏅 𑏇𑏇",
    "𑏈𑏈 𑒻𑒻 𑒼𑒼 𑒾𑒾 𑖺𑖺 𑖻𑖻 𑤸𑤸 𖄡𖄡 𖄢𖄢 𖄣𖄣 𖄤𖄤 𖄥𖄥 𖵨𖵨 𖵩𖵩"]

/-- The composites. Each stands before its base. -/
def composites : List Composite :=
  (compositeWords.flatMap fun words => Text.split ' ' words.toList).filterMap fun word =>
    match word with
    | [whole, base, mark] => some ⟨whole, base, mark⟩
    | _ => none

end Stencil.Url.Domain
