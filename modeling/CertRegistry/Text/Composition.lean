import CertRegistry.Text.CombiningClass

/-!
# Composed characters

Many letters with marks are characters of their own. A text is composed when each of them is
written that way as far as it can be, and the other marks stand in the order of their classes; so
texts that look alike because they differ in the order and composition of marks are equal once
composed. The letters of the tables are small ones. Syllables of the Korean script are composed by
rule: of a first, a second and perhaps a third part.
-/

namespace CertRegistry.Text

/-- What letters become with a mark: each letter is followed by what it becomes. -/
def compositionRows : Array (Nat × String) := #[
  (0x300, "aàeèiìnǹoòuùwẁyỳâầêềôồüǜăằēḕōṑơờưừαὰεὲηὴιὶοὸυὺωὼϊῒϋῢеѐиѝἀἂἁἃἐἒἑἓἠἢἡἣἰἲἱἳὀὂὁὃὐὒὑὓ"),
  (0x300, "ὠὢὡὣ"),
  (0x301, "aácćeégǵiíkḱlĺmḿnńoópṕrŕsśuúwẃyýzźâấåǻæǽçḉêếïḯôốõṍøǿüǘăắēḗōṓũṹơớưứαάεέηήιίοόυύωώ"),
  (0x301, "ϊΐϋΰгѓкќἀἄἁἅἐἔἑἕἠἤἡἥἰἴἱἵὀὄὁὅὐὔὑὕὠὤὡὥ"),
  (0x302, "aâcĉeêgĝhĥiîjĵoôsŝuûwŵyŷzẑạậẹệọộ"),
  (0x303, "aãeẽiĩnñoõuũvṽyỹâẫêễôỗăẵơỡưữ"),
  (0x304, "aāeēgḡiīoōuūyȳäǟæǣõȭöȫüǖǫǭȧǡȯȱαᾱιῑυῡиӣуӯḷḹṛṝ"),
  (0x306, "aăeĕgğiĭoŏuŭȩḝαᾰιῐυῠаӑеӗжӂийуўạặ"),
  (0x307, "aȧbḃcċdḋeėfḟgġhḣmṁnṅoȯpṗrṙsṡtṫwẇxẋyẏzżśṥšṧṣṩ𐗒𐗉𐗚𐗤"),
  (0x308, "aäeëhḧiïoötẗuüwẅxẍyÿõṏūṻιϊυϋаӓеёжӝзӟиӥоӧуӱчӵыӹэӭіїәӛөӫ"),
  (0x309, "aảeẻiỉoỏuủyỷâẩêểôổăẳơởưử"),
  (0x30A, "aåuůwẘyẙ"),
  (0x30B, "oőuűуӳ"),
  (0x30C, "aǎcčdďeěgǧhȟiǐjǰkǩlľnňoǒrřsštťuǔzžüǚʒǯ"),
  (0x30F, "aȁeȅiȉoȍrȑuȕѵѷ"),
  (0x311, "aȃeȇiȋoȏrȓuȗ"),
  (0x313, "αἀεἐηἠιἰοὀρῤυὐωὠ"),
  (0x314, "αἁεἑηἡιἱοὁρῥυὑωὡ"),
  (0x31B, "oơuư"),
  (0x323, "aạbḅdḍeẹhḥiịkḳlḷmṃnṇoọrṛsṣtṭuụvṿwẉyỵzẓơợưự"),
  (0x324, "uṳ"),
  (0x325, "aḁ"),
  (0x326, "sștț"),
  (0x327, "cçdḑeȩgģhḩkķlļnņrŗsştţ"),
  (0x328, "aąeęiįoǫuų"),
  (0x32D, "dḓeḙlḽnṋtṱuṷ"),
  (0x32E, "hḫ"),
  (0x330, "eḛiḭuṵ"),
  (0x331, "bḇdḏhẖkḵlḻnṉrṟtṯzẕ"),
  (0x338, "<≮=≠>≯←↚→↛↔↮⇐⇍⇒⇏⇔⇎∃∄∈∉∋∌∣∤∥∦∼≁≃≄≅≇≈≉≍≭≡≢≤≰≥≱≲≴≳≵≶≸≷≹≺⊀≻⊁≼⋠≽⋡⊂⊄⊃⊅⊆⊈⊇⊉⊑⋢⊒⋣⊢⊬⊨⊭⊩⊮⊫⊯"),
  (0x338, "⊲⋪⊳⋫⊴⋬⊵⋭"),
  (0x342, "αᾶηῆιῖυῦωῶϊῗϋῧἀἆἁἇἠἦἡἧἰἶἱἷὐὖὑὗὠὦὡὧ"),
  (0x653, "اآ"),
  (0x654, "اأوؤيئہۂےۓەۀ"),
  (0x655, "اإ"),
  (0x93C, "नऩरऱळऴ"),
  (0x9BE, "েো"),
  (0x9D7, "েৌ"),
  (0xB3E, "େୋ"),
  (0xB56, "େୈ"),
  (0xB57, "େୌ"),
  (0xBBE, "ெொேோ"),
  (0xBD7, "ஒஔெௌ"),
  (0xC56, "ెై"),
  (0xCC2, "ೆೊ"),
  (0xCD5, "ಿೀೆೇೊೋ"),
  (0xCD6, "ೆೈ"),
  (0xD3E, "െൊേോ"),
  (0xD57, "െൌ"),
  (0xDCA, "ෙේොෝ"),
  (0xDCF, "ෙො"),
  (0xDDF, "ෙෞ"),
  (0x102E, "ဥဦ"),
  (0x1B35, "ᬅᬆᬇᬈᬉᬊᬋᬌᬍᬎᬑᬒᬺᬻᬼᬽᬾᭀᬿᭁᭂᭃ"),
  (0x3099, "うゔかがきぎくぐけげこごさざしじすずせぜそぞただちぢつづてでとどはばひびふぶへべほぼゝゞウヴカガキギクグケゲコゴサザシジスズセゼソゾタダチヂツヅテデトドハバヒビ"),
  (0x3099, "フブヘベホボワヷヰヸヱヹヲヺヽヾ"),
  (0x309A, "はぱひぴふぷへぺほぽハパヒピフプヘペホポ"),
  (0x110BA, "𑂙𑂚𑂛𑂜𑂥𑂫"),
  (0x11127, "𑄱𑄮𑄲𑄯"),
  (0x1133E, "𑍇𑍋"),
  (0x11357, "𑍇𑍌"),
  (0x113B8, "𑏅𑎸"),
  (0x113BB, "𑎄𑎅"),
  (0x113C2, "𑎋𑎎𑏅𑏂"),
  (0x113C9, "𑎂𑎃𑎐𑎑𑏅𑏉"),
  (0x114B0, "𑒹𑒼"),
  (0x114BA, "𑒹𑒻"),
  (0x114BD, "𑒹𑒾"),
  (0x115AF, "𑖸𑖺𑖹𑖻"),
  (0x11930, "𑤵𑤸"),
  (0x1611E, "𖄡𖄞"),
  (0x1611F, "𖄦𖄡𖄦𖄢𖄧𖄩𖄤"),
  (0x16120, "𖄨𖄡𖄨"),
  (0x16129, "𖄡𖄩"),
  (0x16D67, "𖵣𖵪𖵨𖵩𖵪")
]

/-- The letters, the marks, and what they become. -/
def compositions : Array (Char × Char × Char) :=
  compositionRows.flatMap fun (mark, letters) => (pairs (Char.ofNat mark) letters.toList).toArray
where
  pairs (mark : Char) : List Char → List (Char × Char × Char)
    | letter :: composed :: rest => (letter, mark, composed) :: pairs mark rest
    | _ => []

/-- The parts of a syllable, of which there are 19, 21 and 27, by their first code points. -/
structure SyllableParts where
  first : Nat := 0x1100
  second : Nat := 0x1161
  /-- The code point before those of the third parts. -/
  third : Nat := 0x11A7
  /-- The code point of the first syllable; the third part changes fastest. -/
  syllable : Nat := 0xAC00

/-- The syllable of two parts, or of a syllable of two parts and a third one. -/
def composeSyllable? (a b : Char) : Option Char :=
  let parts : SyllableParts := {}
  let i := a.toNat - parts.first
  let j := b.toNat - parts.second
  let s := a.toNat - parts.syllable
  let k := b.toNat - parts.third
  if parts.first ≤ a.toNat ∧ i < 19 ∧ parts.second ≤ b.toNat ∧ j < 21 then
    some (Char.ofNat (parts.syllable + (i * 21 + j) * 28))
  else if parts.syllable ≤ a.toNat ∧ s < 19 * 21 * 28 ∧ s % 28 = 0 ∧ parts.third < b.toNat ∧
      k < 28 then
    some (Char.ofNat (a.toNat + k))
  else none

/-- The syllable before its last part, and that part. -/
def splitSyllable? (c : Char) : Option (Char × Char) :=
  let parts : SyllableParts := {}
  let s := c.toNat - parts.syllable
  if parts.syllable ≤ c.toNat ∧ s < 19 * 21 * 28 then
    if s % 28 = 0 then
      some (Char.ofNat (parts.first + s / 588), Char.ofNat (parts.second + s % 588 / 28))
    else some (Char.ofNat (c.toNat - s % 28), Char.ofNat (parts.third + s % 28))
  else none

/-- The character that two characters compose to. -/
def compose? (a b : Char) : Option Char :=
  match composeSyllable? a b with
  | some c => some c
  | none => (compositions.find? fun (x, y, _) => x = a && y = b).map (·.2.2)

/-- The two characters that a character is composed of. -/
def split? (c : Char) : Option (Char × Char) :=
  if c.toNat < 0x80 then none
  else
    match splitSyllable? c with
    | some parts => some parts
    | none => (compositions.find? fun (_, _, z) => z = c).map fun (x, y, _) => (x, y)

/-- The parts of a character, which is taken apart so many times at most. -/
def decompose : Nat → Char → List Char
  | 0, c => [c]
  | depth + 1, c =>
    match split? c with
    | some (a, b) => decompose depth a ++ [b]
    | none => [c]

/-- No letter has more marks than this. -/
def mostMarks : Nat := 4

/-- Puts a character before text in which marks are in order, and moves it to its place. -/
def insertMark (c : Char) : List Char → List Char
  | [] => [c]
  | d :: rest =>
    if combiningClass d ≠ 0 ∧ combiningClass d < combiningClass c then d :: insertMark c rest
    else c :: d :: rest

/-- The text in its parts, with marks in the order of their classes. -/
def decomposed (cs : List Char) : List Char :=
  (cs.flatMap (decompose mostMarks)).foldr insertMark []

/-- Composes a base with the marks that follow. Those that stay marks are collected, the last one
first; a mark is out of reach behind one of its own class. -/
def composeFrom (base : Char) (kept : List Char) : List Char → List Char
  | [] => base :: kept.reverse
  | c :: rest =>
    let reached := match kept with
      | [] => true
      | mark :: _ => combiningClass mark < combiningClass c
    match if reached then compose? base c else none with
    | some d => composeFrom d kept rest
    | none =>
      if combiningClass c = 0 then base :: (kept.reverse ++ composeFrom c [] rest)
      else composeFrom base (c :: kept) rest

def isAscii (cs : List Char) : Bool := cs.all (·.toNat < 0x80)

/-- The text with all that can be composed. Nothing can be in ASCII. -/
def composed (cs : List Char) : List Char :=
  if isAscii cs then cs
  else
    match decomposed cs with
    | [] => []
    | c :: rest => composeFrom c [] rest

end CertRegistry.Text
