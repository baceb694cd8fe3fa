import CertRegistry.Text.Runs

/-!
# Forms of characters

Characters that are another character, or a few, in a special form: narrow, wide, raised, circled,
joined, at a certain place of a word, in a style of mathematics, or for the sake of older sets of
characters.
-/

namespace CertRegistry.Text

/-- Runs of forms, and the character that the first one stands for; the others follow in order. -/
def shiftedRuns : Array (Nat × Nat × Nat) := #[
  (0x13F8, 0x13FD, 0x13F0), (0x1D33, 0x1D3A, 0x67), (0x1DAE, 0x1DB1, 0x272),
  (0x1FEF, 0x1FEF, 0x60), (0x2074, 0x2079, 0x34), (0x2080, 0x2089, 0x30), (0x2096, 0x2099, 0x6B),
  (0x2135, 0x2138, 0x5D0), (0x2460, 0x2468, 0x31), (0x24B6, 0x24CF, 0x61),
  (0x24D0, 0x24E9, 0x61), (0x313A, 0x313F, 0x11B0), (0x3145, 0x314E, 0x1109),
  (0x314F, 0x3163, 0x1161), (0x3178, 0x317C, 0x112B), (0x3269, 0x326D, 0x110E),
  (0x32E4, 0x32E9, 0x30CA), (0x32EE, 0x32F2, 0x30DE), (0x32F5, 0x32FA, 0x30E8),
  (0x32FB, 0x32FE, 0x30EF), (0xAB70, 0xABBF, 0x13A0), (0xFE37, 0xFE37, 0x7B),
  (0xFE38, 0xFE38, 0x7D), (0xFE41, 0xFE44, 0x300C), (0xFE5B, 0xFE5B, 0x7B),
  (0xFE5C, 0xFE5C, 0x7D), (0xFE68, 0xFE68, 0x5C), (0xFF01, 0xFF20, 0x21), (0xFF21, 0xFF3A, 0x61),
  (0xFF3B, 0xFF5E, 0x5B), (0xFF85, 0xFF8A, 0x30CA), (0xFF8F, 0xFF93, 0x30DE),
  (0xFF96, 0xFF9B, 0x30E8), (0xFFAA, 0xFFAF, 0x11B0), (0xFFB5, 0xFFBE, 0x1109),
  (0xFFC2, 0xFFC7, 0x1161), (0xFFCA, 0xFFCF, 0x1167), (0xFFD2, 0xFFD7, 0x116D),
  (0xFFE9, 0xFFEC, 0x2190), (0x1CCD6, 0x1CCEF, 0x61), (0x1CCF0, 0x1CCF9, 0x30),
  (0x1D400, 0x1D419, 0x61), (0x1D41A, 0x1D433, 0x61), (0x1D434, 0x1D44D, 0x61),
  (0x1D44E, 0x1D454, 0x61), (0x1D456, 0x1D467, 0x69), (0x1D468, 0x1D481, 0x61),
  (0x1D482, 0x1D49B, 0x61), (0x1D4A9, 0x1D4AC, 0x6E), (0x1D4AE, 0x1D4B5, 0x73),
  (0x1D4B6, 0x1D4B9, 0x61), (0x1D4BD, 0x1D4C3, 0x68), (0x1D4C5, 0x1D4CF, 0x70),
  (0x1D4D0, 0x1D4E9, 0x61), (0x1D4EA, 0x1D503, 0x61), (0x1D507, 0x1D50A, 0x64),
  (0x1D50D, 0x1D514, 0x6A), (0x1D516, 0x1D51C, 0x73), (0x1D51E, 0x1D537, 0x61),
  (0x1D53B, 0x1D53E, 0x64), (0x1D540, 0x1D544, 0x69), (0x1D54A, 0x1D550, 0x73),
  (0x1D552, 0x1D56B, 0x61), (0x1D56C, 0x1D585, 0x61), (0x1D586, 0x1D59F, 0x61),
  (0x1D5A0, 0x1D5B9, 0x61), (0x1D5BA, 0x1D5D3, 0x61), (0x1D5D4, 0x1D5ED, 0x61),
  (0x1D5EE, 0x1D607, 0x61), (0x1D608, 0x1D621, 0x61), (0x1D622, 0x1D63B, 0x61),
  (0x1D63C, 0x1D655, 0x61), (0x1D656, 0x1D66F, 0x61), (0x1D670, 0x1D689, 0x61),
  (0x1D68A, 0x1D6A3, 0x61), (0x1D6A8, 0x1D6B8, 0x3B1), (0x1D6BA, 0x1D6C0, 0x3C3),
  (0x1D6C2, 0x1D6D2, 0x3B1), (0x1D6D4, 0x1D6DA, 0x3C3), (0x1D6E2, 0x1D6F2, 0x3B1),
  (0x1D6F4, 0x1D6FA, 0x3C3), (0x1D6FC, 0x1D70C, 0x3B1), (0x1D70E, 0x1D714, 0x3C3),
  (0x1D71C, 0x1D72C, 0x3B1), (0x1D72E, 0x1D734, 0x3C3), (0x1D736, 0x1D746, 0x3B1),
  (0x1D748, 0x1D74E, 0x3C3), (0x1D756, 0x1D766, 0x3B1), (0x1D768, 0x1D76E, 0x3C3),
  (0x1D770, 0x1D780, 0x3B1), (0x1D782, 0x1D788, 0x3C3), (0x1D790, 0x1D7A0, 0x3B1),
  (0x1D7A2, 0x1D7A8, 0x3C3), (0x1D7AA, 0x1D7BA, 0x3B1), (0x1D7BC, 0x1D7C2, 0x3C3),
  (0x1D7CE, 0x1D7D7, 0x30), (0x1D7D8, 0x1D7E1, 0x30), (0x1D7E2, 0x1D7EB, 0x30),
  (0x1D7EC, 0x1D7F5, 0x30), (0x1D7F6, 0x1D7FF, 0x30), (0x1E030, 0x1E038, 0x430),
  (0x1E03C, 0x1E046, 0x43E), (0x1E051, 0x1E059, 0x430), (0x1E05F, 0x1E064, 0x443),
  (0x1EE0A, 0x1EE0D, 0x643), (0x1EE2A, 0x1EE2D, 0x643), (0x1F130, 0x1F149, 0x61),
  (0x1FBF0, 0x1FBF9, 0x30)
]

/-- The first one of a run, and the characters that those in the run stand for. -/
def singleRows : Array (Nat × String) := #[
  (0x2B0, "hɦjrɹɻʁwy"), (0x3D0, "βθυύϋφπ"), (0x1C80, "вдосттъѣꙋ"),
  (0x1D3C, "oȣprtuwaɐɑᴂbdeəɛɜg"), (0x1D4F, "kmŋoɔᴖᴗptuᴝɯvᴥβγδφχiruvβγρφχ"),
  (0x1D9B, "ɒcɕðɜfɟɡɥɨɩɪᵻʝɭᶅʟɱɰ"), (0x1DB2, "ɸʂʃƫʉʊᴜʋʌzʐʑʒθ"), (0x207A, "+−=()n"),
  (0x2090, "aeoxəh"), (0x210A, "ghhhhħiill"), (0x3131, "ᄀᄁᆪᄂᆬᆭᄃᄄᄅ"),
  (0x3165, "ᄔᄕᇇᇈᇌᇎᇓᇗᇙᄜᇝᇟᄝᄞᄠᄢᄣᄧᄩ"), (0x317D, "ᄲᄶᅀᅇᅌᇱᇲᅗᅘᅙᆄᆅᆈᆑᆒᆔᆞᆡ"), (0xFB20, "עאדהכלםרת+"),
  (0xFB50, "ٱٱٻٻٻٻپپپپڀڀڀڀٺٺٺٺٿٿٿٿٹٹٹٹڤڤڤڤڦڦڦڦڄڄڄڄڃڃ"),
  (0xFB78, "ڃڃچچچچڇڇڇڇڍڍڌڌڎڎڈڈژژڑڑککککگگگگڳڳڳڳڱڱڱڱںں"), (0xFBA0, "ڻڻڻڻۀۀہہہہھھھھےےۓۓ"),
  (0xFBD3, "ڭڭڭڭۇۇۆۆۈۈ"), (0xFBDE, "ۋۋۅۅۉۉېېېېىى"), (0xFE13, ":;!?〖〗"), (0xFE31, "—–__()"),
  (0xFE39, "〔〕【】《》〈〉"), (0xFE54, ";:?!—()"), (0xFE5D, "〔〕#&*+-<>="),
  (0xFE80, "ءآآأأؤؤإإئئئئااببببةةتتتتثثثثججججححححخخخ"),
  (0xFEA8, "خددذذررززسسسسششششصصصصضضضضططططظظظظععععغغغ"),
  (0xFED0, "غففففققققككككللللممممننننههههووىىيييي"),
  (0xFF5F, "⦅⦆.「」、・ヲァィゥェォャュョッーアイウエオカキクケコサシスセソタチツテト"), (0xFFA1, "ᄀᄁᆪᄂᆬᆭᄃᄄᄅ"),
  (0x10787, "ʣꭦʥʤɖɗᶑɘɞʩɤɢɠʛħʜɧʄʪʫɬ𝼄ꞎɮ𝼅ʎ𝼆øɶɷqɺ𝼈ɽɾʀʨʦꭧʧ"), (0x107AF, "ʈⱱ"), (0x107B2, "ʏʡʢʘǀǁǂ𝼊𝼞"),
  (0x1D6DB, "∂εθκφρπ"), (0x1D715, "∂εθκφρπ"), (0x1D74F, "∂εθκφρπ"), (0x1D789, "∂εθκφρπ"),
  (0x1D7C3, "∂εθκφρπϝϝ"), (0x1E047, "ыэюꚉәіјөүӏ"), (0x1E065, "ъыґіѕџҫꙑұ"),
  (0x1EE0E, "سعفصقرشتثخذضظغٮںڡٯ"), (0x1EE6C, "منسعفصق"), (0x1EE80, "ابجدهوزحطي"),
  (0x1EE8B, "لمنسعفصقرشتثخذضظغ"), (0x1EEAB, "لمنسعفصقرشتثخذضظغ"),
  (0x1F210, "手字双デ二多解天交映無料前後再新初終生販声吹演投捕一三遊左中右指走打禁空合満有月"), (0x1F238, "申割営配")
]

/-- The first one of a run, and what those in the run stand for, with spaces between. -/
def compoundRows : Array (Nat × String) := #[
  (0xAA, "a"), (0xB2, "2 3"), (0xB5, "μ"), (0xB9, "1 o"), (0xBC, "1⁄4 1⁄2 3⁄4"), (0x130, "i̇"),
  (0x132, "ij ij"), (0x13F, "l· l·"), (0x149, "ʼn"), (0x17F, "s"),
  (0x1C4, "dž dž dž lj lj lj nj nj nj"), (0x1F1, "dz dz dz"), (0x2E0, "ɣ l s x ʕ"),
  (0x340, "̀ ́"), (0x343, "̓ ̈́ ι"), (0x374, "ʹ"), (0x37E, ";"), (0x387, "·"), (0x3F0, "κ ρ σ"),
  (0x3F5, "ε"), (0x3F9, "σ"), (0x587, "եւ"), (0x675, "اٴ وٴ ۇٴ يٴ"),
  (0x958, "क़ ख़ ग़ ज़ ड़ ढ़ फ़ य़"), (0x9DC, "ড় ঢ়"), (0x9DF, "য়"), (0xA33, "ਲ਼"),
  (0xA36, "ਸ਼"), (0xA59, "ਖ਼ ਗ਼ ਜ਼"), (0xA5E, "ਫ਼"), (0xB5C, "ଡ଼ ଢ଼"), (0xE33, "ํา"),
  (0xEB3, "ໍາ"), (0xEDC, "ຫນ ຫມ"), (0xF0C, "་"), (0xF43, "གྷ"), (0xF4D, "ཌྷ"), (0xF52, "དྷ"),
  (0xF57, "བྷ"), (0xF5C, "ཛྷ"), (0xF69, "ཀྵ"), (0xF73, "ཱི"), (0xF75, "ཱུ ྲྀ ྲཱྀ ླྀ ླཱྀ"),
  (0xF81, "ཱྀ"), (0xF93, "ྒྷ"), (0xF9D, "ྜྷ"), (0xFA2, "ྡྷ"), (0xFA7, "ྦྷ"), (0xFAC, "ྫྷ"),
  (0xFB9, "ྐྵ"), (0x10FC, "ნ"), (0x1D2C, "a æ b"), (0x1D30, "d e ǝ"), (0x1D78, "н"),
  (0x1E9A, "aʾ ṡ"), (0x1F71, "ά"), (0x1F73, "έ"), (0x1F75, "ή"), (0x1F77, "ί"), (0x1F79, "ό"),
  (0x1F7B, "ύ"), (0x1F7D, "ώ"),
  (0x1F80, "ἀι ἁι ἂι ἃι ἄι ἅι ἆι ἇι ἀι ἁι ἂι ἃι ἄι ἅι ἆι ἇι ἠι ἡι ἢι ἣι ἤι ἥι ἦι ἧι ἠι ἡι"),
  (0x1F9A, "ἢι ἣι ἤι ἥι ἦι ἧι ὠι ὡι ὢι ὣι ὤι ὥι ὦι ὧι ὠι ὡι ὢι ὣι ὤι ὥι ὦι ὧι"),
  (0x1FB2, "ὰι αι άι"), (0x1FB7, "ᾶι"), (0x1FBB, "ά αι"), (0x1FBE, "ι"), (0x1FC2, "ὴι ηι ήι"),
  (0x1FC7, "ῆι"), (0x1FC9, "έ"), (0x1FCB, "ή ηι"), (0x1FD3, "ΐ"), (0x1FDB, "ί"), (0x1FE3, "ΰ"),
  (0x1FEB, "ύ"), (0x1FF2, "ὼι ωι ώι"), (0x1FF7, "ῶι"), (0x1FF9, "ό"), (0x1FFB, "ώ ωι"),
  (0x2011, "‐"), (0x2033, "′′ ′′′"), (0x2036, "‵‵ ‵‵‵"), (0x203C, "!!"), (0x2047, "?? ?! !?"),
  (0x2057, "′′′′"), (0x2070, "0 i"), (0x208A, "+ − = ( )"), (0x209A, "p s t"), (0x20A8, "rs"),
  (0x2100, "a/c a/s c °c"), (0x2105, "c/o c/u ɛ"), (0x2109, "°f"), (0x2115, "n no"),
  (0x2119, "p q r r r"), (0x2120, "sm tel tm"), (0x2124, "z"), (0x2128, "z"), (0x212C, "b c"),
  (0x212F, "e e f"), (0x2133, "m o"), (0x2139, "i"), (0x213B, "fax π γ γ π ∑"),
  (0x2145, "d d e i j"),
  (0x2150, "1⁄7 1⁄9 1⁄10 1⁄3 2⁄3 1⁄5 2⁄5 3⁄5 4⁄5 1⁄6 5⁄6 1⁄8 3⁄8 5⁄8 7⁄8 1⁄ i ii iii iv v"),
  (0x2165, "vi vii viii ix x xi xii l c d m i ii iii iv v vi vii viii ix x xi xii l c d m"),
  (0x2189, "0⁄3"), (0x222C, "∫∫ ∫∫∫"), (0x222F, "∮∮ ∮∮∮"), (0x2329, "〈 〉"),
  (0x2469, "10 11 12 13 14 15 16 17 18 19 20 (1) (2) (3) (4) (5) (6) (7) (8) (9) (10)"),
  (0x247E, "(11) (12) (13) (14) (15) (16) (17) (18) (19) (20)"),
  (0x249C, "(a) (b) (c) (d) (e) (f) (g) (h) (i) (j) (k) (l) (m) (n) (o) (p) (q) (r) (s)"),
  (0x24AF, "(t) (u) (v) (w) (x) (y) (z)"), (0x24EA, "0"), (0x2A0C, "∫∫∫∫"),
  (0x2A74, "::= == ==="), (0x2ADC, "⫝̸"), (0x2C7C, "j v"), (0x2D6F, "ⵡ"), (0x2E9F, "母"),
  (0x2EF3, "龟"), (0x3002, "."), (0x3036, "〒"), (0x3038, "十 卄 卅"), (0x309F, "より"), (0x30FF, "コト"),
  (0x3140, "ᄚ ᄆ ᄇ ᄈ ᄡ"),
  (0x3200, "(ᄀ) (ᄂ) (ᄃ) (ᄅ) (ᄆ) (ᄇ) (ᄉ) (ᄋ) (ᄌ) (ᄎ) (ᄏ) (ᄐ) (ᄑ) (ᄒ) (가) (나) (다) (라) (마)"),
  (0x3213, "(바) (사) (아) (자) (차) (카) (타) (파) (하) (주) (오전) (오후)"),
  (0x3220, "(一) (二) (三) (四) (五) (六) (七) (八) (九) (十) (月) (火) (水) (木) (金) (土) (日) (株) (有)"),
  (0x3233, "(社) (名) (特) (財) (祝) (労) (代) (呼) (学) (監) (企) (資) (協) (祭) (休) (自) (至) 問 幼 文 箏"),
  (0x3250, "pte 21 22 23 24 25 26 27 28 29 30 31 32 33 34 35"), (0x327C, "참고 주의 우"),
  (0x32B1, "36 37 38 39 40 41 42 43 44 45 46 47 48 49 50 1月 2月 3月 4月 5月 6月 7月 8月 9月 10月"),
  (0x32CA, "11月 12月 hg erg ev ltd"), (0x32EA, "ヒ フ ヘ ホ"), (0x32F3, "ヤ ユ"),
  (0x32FF, "令和 アパート アルファ アンペア アール イニング インチ ウォン エスクード エーカー オンス オーム カイリ カラット カロリー ガロン ガンマ"),
  (0x3310, "ギガ ギニー キュリー ギルダー キロ キログラム キロメートル キロワット グラム グラムトン クルゼイロ クローネ ケース コルナ コーポ サイクル"),
  (0x3320, "サンチーム シリング センチ セント ダース デシ ドル トン ナノ ノット ハイツ パーセント パーツ バーレル ピアストル ピクル ピコ ビル"),
  (0x3332, "ファラッド フィート ブッシェル フラン ヘクタール ペソ ペニヒ ヘルツ ペンス ページ ベータ ポイント ボルト ホン ポンド ホール ホーン"),
  (0x3343, "マイクロ マイル マッハ マルク マンション ミクロン ミリ ミリバール メガ メガトン メートル ヤード ヤール ユアン リットル リラ ルピー"),
  (0x3354, "ルーブル レム レントゲン ワット 0点 1点 2点 3点 4点 5点 6点 7点 8点 9点 10点 11点 12点 13点 14点 15点 16点"),
  (0x3369, "17点 18点 19点 20点 21点 22点 23点 24点 hpa da au bar ov pc dm dm2 dm3 iu 平成 昭和 大正 明治"),
  (0x337F, "株式会社 pa na μa ma ka kb mb gb cal kcal pf nf μf μg mg kg hz khz mhz ghz thz μl"),
  (0x3396, "ml dl kl fm nm μm mm cm km mm2 cm2 m2 km2 mm3 cm3 m3 km3 m∕s m∕s2 pa kpa mpa"),
  (0x33AC, "gpa rad rad∕s rad∕s2 ps ns μs ms pv nv μv mv kv mv pw nw μw mw kw mw kω mω"),
  (0x33C3, "bq cc cd c∕kg"), (0x33C8, "db gy ha hp in kk km kt lm ln log lx mb mil mol ph"),
  (0x33D9, "ppm pr sr sv wb v∕m a∕m 1日 2日 3日 4日 5日 6日 7日 8日 9日 10日 11日 12日 13日 14日 15日"),
  (0x33EF, "16日 17日 18日 19日 20日 21日 22日 23日 24日 25日 26日 27日 28日 29日 30日 31日 gal"),
  (0xA69C, "ъ ь"), (0xA770, "ꝯ"), (0xA7F1, "s c f q"), (0xA7F8, "ħ œ"), (0xAB5C, "ꜧ ꬷ ɫ ꭒ"),
  (0xAB69, "ʍ"), (0xFA10, "塚"), (0xFA12, "晴"), (0xFA20, "蘒"), (0xFA22, "諸"), (0xFA25, "逸 都"),
  (0xFB00, "ff fi fl ffi ffl st st"), (0xFB13, "մն մե մի վն մխ"), (0xFB1D, "יִ"), (0xFB1F, "ײַ"),
  (0xFB2A, "שׁ שׂ שּׁ שּׂ אַ אָ אּ בּ גּ דּ הּ וּ זּ"), (0xFB38, "טּ יּ ךּ כּ לּ"),
  (0xFB3E, "מּ"), (0xFB40, "נּ סּ"), (0xFB43, "ףּ פּ"),
  (0xFB46, "צּ קּ רּ שּ תּ וֹ בֿ כֿ פֿ אל"), (0xFBDD, "ۇٴ"),
  (0xFBEA, "ئا ئا ئە ئە ئو ئو ئۇ ئۇ ئۆ ئۆ ئۈ ئۈ ئې ئې ئې ئى ئى ئى ی ی ی ی ئج ئح ئم ئى ئي"),
  (0xFC05, "بج بح بخ بم بى بي تج تح تخ تم تى تي ثج ثم ثى ثي جح جم حج حم خج خح خم سج سح سخ"),
  (0xFC1F, "سم صح صم ضج ضح ضخ ضم طح طم ظم عج عم غج غم فج فح فخ فم فى في قح قم قى قي كا كج"),
  (0xFC39, "كح كخ كل كم كى كي لج لح لخ لم لى لي مج مح مخ مم مى مي نج نح نخ نم نى ني هج هم"),
  (0xFC53, "هى هي يج يح يخ يم يى يي ذٰ رٰ ىٰ"),
  (0xFC64, "ئر ئز ئم ئن ئى ئي بر بز بم بن بى بي تر تز تم تن تى تي ثر ثز ثم ثن ثى ثي فى في"),
  (0xFC7E, "قى قي كا كل كم كى كي لم لى لي ما مم نر نز نم نن نى ني ىٰ ير يز يم ين يى يي ئج"),
  (0xFC98, "ئح ئخ ئم ئه بج بح بخ بم به تج تح تخ تم ته ثم جح جم حج حم خج خم سج سح سخ سم صح"),
  (0xFCB2, "صخ صم ضج ضح ضخ ضم طح ظم عج عم غج غم فج فح فخ فم قح قم كج كح كخ كل كم لج لح لخ"),
  (0xFCCC, "لم له مج مح مخ مم نج نح نخ نم نه هج هم هٰ يج يح يخ يم يه ئم ئه بم به تم ته ثم"),
  (0xFCE6, "ثه سم سه شم شه كل كم لم نم نه يم يه ـَّ ـُّ ـِّ طى طي عى عي غى غي سى سي شى شي"),
  (0xFCFF, "حى حي جى جي خى خي صى صي ضى ضي شج شح شخ شم شر سر صر ضر طى طي عى عي غى غي سى سي"),
  (0xFD19, "شى شي حى حي جى جي خى خي صى صي ضى ضي شج شح شخ شم شر سر صر ضر شج شح شخ شم سه شه"),
  (0xFD33, "طم سج سح سخ شج شح شخ طم ظم اً اً"),
  (0xFD50, "تجم تحج تحج تحم تخم تمج تمح تمخ جمح جمح حمي حمى سحج سجح سجى سمح سمح سمج سمم"),
  (0xFD63, "سمم صحح صحح صمم شحم شحم شجي شمخ شمخ شمم شمم ضحى ضخم ضخم طمح طمح طمم طمي عجم"),
  (0xFD76, "عمم عمم عمى غمم غمي غمى فخم فخم قمح قمم لحم لحي لحى لجج لجج لخم لخم لمح لمح"),
  (0xFD89, "محج محم محي مجح مجم مخج مخم"),
  (0xFD92, "مجخ همج همم نحم نحى نجم نجم نجى نمي نمى يمم يمم بخي تجي تجى تخي تخى تمي تمى"),
  (0xFDA5, "جمي جحى جمى سخى صحي شحي ضحي لجي لمي يحي يجي يمي ممي قمي نحي قمح لحم عمي كمي"),
  (0xFDB8, "نجح مخي لجم كمم لجم نجح جحي حجي مجي فمي بحي كمم عجم صمم سخي نجي"),
  (0xFDF0, "صلے قلے الله اكبر محمد صلعم رسول عليه وسلم صلى"), (0xFDFC, "ریال"), (0xFE10, ", 、"),
  (0xFE47, "[ ]"), (0xFE4D, "_ _ _ , 、"), (0xFE69, "$ % @"), (0xFE71, "ـً"), (0xFE77, "ـَ"),
  (0xFE79, "ـُ"), (0xFE7B, "ـِ"), (0xFE7D, "ـّ"), (0xFE7F, "ـْ"),
  (0xFEF5, "لآ لآ لأ لأ لإ لإ لا لا"), (0xFF8B, "ヒ フ ヘ ホ"), (0xFF94, "ヤ ユ"), (0xFF9C, "ワ ン ゙ ゚"),
  (0xFFB0, "ᄚ ᄆ ᄇ ᄈ ᄡ"), (0xFFDA, "ᅳ ᅴ ᅵ"), (0xFFE0, "¢ £ ¬"), (0xFFE4, "¦ ¥ ₩"), (0xFFE8, "│"),
  (0xFFED, "■ ○"), (0x10781, "ː ˑ æ ʙ ɓ"), (0x1D15E, "𝅗𝅥 𝅘𝅥 𝅘𝅥𝅮 𝅘𝅥𝅯 𝅘𝅥𝅰 𝅘𝅥𝅱 𝅘𝅥𝅲"),
  (0x1D1BB, "𝆹𝅥 𝆺𝅥 𝆹𝅥𝅮 𝆺𝅥𝅮 𝆹𝅥𝅯 𝆺𝅥𝅯"), (0x1D49C, "a"), (0x1D49E, "c d"), (0x1D4A2, "g"),
  (0x1D4A5, "j k"), (0x1D4BB, "f"), (0x1D504, "a b"), (0x1D538, "a b"), (0x1D546, "o"),
  (0x1D6A4, "ı ȷ"), (0x1D6B9, "θ"), (0x1D6C1, "∇"), (0x1D6D3, "σ"), (0x1D6F3, "θ"),
  (0x1D6FB, "∇"), (0x1D70D, "σ"), (0x1D72D, "θ"), (0x1D735, "∇"), (0x1D747, "σ"), (0x1D767, "θ"),
  (0x1D76F, "∇"), (0x1D781, "σ"), (0x1D7A1, "θ"), (0x1D7A9, "∇"), (0x1D7BB, "σ"),
  (0x1E039, "к л м"), (0x1E05A, "к л о п с"), (0x1EE00, "ا ب ج د"), (0x1EE05, "و ز ح ط ي"),
  (0x1EE21, "ب ج"), (0x1EE24, "ه"), (0x1EE27, "ح"), (0x1EE29, "ي"), (0x1EE2E, "س ع ف ص ق"),
  (0x1EE34, "ش ت ث خ"), (0x1EE39, "ض"), (0x1EE3B, "غ"), (0x1EE42, "ج"), (0x1EE47, "ح"),
  (0x1EE49, "ي"), (0x1EE4B, "ل"), (0x1EE4D, "ن س ع"), (0x1EE51, "ص ق"), (0x1EE54, "ش"),
  (0x1EE57, "خ"), (0x1EE59, "ض"), (0x1EE5B, "غ"), (0x1EE5D, "ں"), (0x1EE5F, "ٯ"),
  (0x1EE61, "ب ج"), (0x1EE64, "ه"), (0x1EE67, "ح ط ي ك"), (0x1EE74, "ش ت ث خ"),
  (0x1EE79, "ض ظ غ ٮ"), (0x1EE7E, "ڡ"), (0x1EEA1, "ب ج د"), (0x1EEA5, "و ز ح ط ي"),
  (0x1F101, "0, 1, 2, 3, 4, 5, 6, 7, 8, 9,"),
  (0x1F110, "(a) (b) (c) (d) (e) (f) (g) (h) (i) (j) (k) (l) (m) (n) (o) (p) (q) (r) (s)"),
  (0x1F123, "(t) (u) (v) (w) (x) (y) (z) 〔s〕 c r cd wz"), (0x1F14A, "hv mv sd ss ppv wc"),
  (0x1F16A, "mc md mr"), (0x1F190, "dj"), (0x1F200, "ほか ココ サ"),
  (0x1F240, "〔本〕 〔三〕 〔二〕 〔安〕 〔点〕 〔打〕 〔盗〕 〔勝〕 〔敗〕"), (0x1F250, "得 可")
]

/-- The runs of forms that stand for a blank, or for text with a blank. -/
def blankRuns : Runs := #[
  (0xA0, 0xA0), (0xA8, 0xA8), (0xAF, 0xAF), (0xB4, 0xB4), (0xB8, 0xB8), (0x2D8, 0x2DD),
  (0x37A, 0x37A), (0x384, 0x385), (0x1FBD, 0x1FBD), (0x1FBF, 0x1FC1), (0x1FCD, 0x1FCF),
  (0x1FDD, 0x1FDF), (0x1FED, 0x1FEE), (0x1FFD, 0x1FFE), (0x2000, 0x200A), (0x2017, 0x2017),
  (0x202F, 0x202F), (0x203E, 0x203E), (0x205F, 0x205F), (0x3000, 0x3000), (0x309B, 0x309C),
  (0xFC5E, 0xFC63), (0xFDFA, 0xFDFB), (0xFE49, 0xFE4C), (0xFE70, 0xFE70), (0xFE72, 0xFE72),
  (0xFE74, 0xFE74), (0xFE76, 0xFE76), (0xFE78, 0xFE78), (0xFE7A, 0xFE7A), (0xFE7C, 0xFE7C),
  (0xFE7E, 0xFE7E), (0xFFE3, 0xFFE3)
]

end CertRegistry.Text
