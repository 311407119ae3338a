import QueueBoard.Text.Property
/-!
# Grapheme clusters and columns

What a reader takes for one character: a base with its marks, a Hangul syllable, a flag, a sequence
of joined pictures. The rules are the extended ones of the Unicode standard; each looks at the
character before a place, the one after it, and a little of what came earlier.

A text takes up columns of a terminal. Ideographs and pictures are two wide, marks have no width of
their own, and a sequence of joined pictures is as wide as one.
-/

namespace QueueBoard.Text

/-- The part a character plays in a cluster. -/
inductive ClusterRole where
  | carriageReturn
  | lineFeed
  | control
  | extender
  | joiner
  | flagHalf
  | prepender
  | spacingMark
  | hangulLead
  | hangulVowel
  | hangulTail
  | hangulOpen
  | hangulClosed
  | picture
  | other
  deriving Repr, BEq, DecidableEq

/-- Whether a character changes the skin tone of the picture before it. -/
def isSkinTone (c : Char) : Bool := 0x1F3FB ≤ c.toNat && c.toNat ≤ 0x1F3FF

/-- Whether a character is half of a flag. -/
def isFlagHalf (c : Char) : Bool := 0x1F1E6 ≤ c.toNat && c.toNat ≤ 0x1F1FF

/-- The role of a character. -/
def ClusterRole.of (c : Char) : ClusterRole :=
  let n := c.toNat
  if n == 0x0D then .carriageReturn
  else if n == 0x0A then .lineFeed
  else if 0x20 ≤ n && n < 0x7F then .other
  else if n == 0x200D then .joiner
  else if isFlagHalf c then .flagHalf
  else if 0xAC00 ≤ n && n ≤ 0xD7A3 then
    if (n - 0xAC00) % 28 == 0 then .hangulOpen else .hangulClosed
  else if (0x1100 ≤ n && n ≤ 0x115F) || (0xA960 ≤ n && n ≤ 0xA97C) then .hangulLead
  else if (0x1160 ≤ n && n ≤ 0x11A7) || (0xD7B0 ≤ n && n ≤ 0xD7C6) then .hangulVowel
  else if (0x11A8 ≤ n && n ≤ 0x11FF) || (0xD7CB ≤ n && n ≤ 0xD7FB) then .hangulTail
  else if graphemeExtenders.contains c || isSkinTone c then .extender
  else if spacingMarks.contains c then .spacingMark
  else if prependers.contains c then .prepender
  else if clusterControls.contains c then .control
  else if pictographs.contains c then .picture
  else .other

/-- Whether a character joins two consonants of an Indic script. -/
def isConjunctLinker (c : Char) : Bool :=
  [0x94D, 0x9CD, 0xACD, 0xB4D, 0xC4D, 0xD4D].contains c.toNat

/-- Consonants of Indic scripts that may be joined. -/
def conjunctConsonants : RangeTable := ⟨#[
  (0x915, 0x939), (0x958, 0x95f), (0x978, 0x97f), (0x995, 0x9a8), (0x9aa, 0x9b0), (0x9b2, 0x9b2),
  (0x9b6, 0x9b9), (0x9dc, 0x9dd), (0x9df, 0x9df), (0x9f0, 0x9f1), (0xa95, 0xaa8), (0xaaa, 0xab0),
  (0xab2, 0xab3), (0xab5, 0xab9), (0xaf9, 0xaf9), (0xb15, 0xb28), (0xb2a, 0xb30), (0xb32, 0xb33),
  (0xb35, 0xb39), (0xb5c, 0xb5d), (0xb5f, 0xb5f), (0xb71, 0xb71), (0xc15, 0xc28), (0xc2a, 0xc39),
  (0xc58, 0xc5a), (0xd15, 0xd3a)]⟩

/-- How far a conjunct of Indic consonants has come. -/
inductive Conjunct where
  | none
  | consonant
  | linked
  deriving Repr, BEq, DecidableEq

/-- What is remembered of the characters before a place. -/
structure ClusterState where
  last : ClusterRole
  /-- An odd number of flag halves came last. -/
  halfFlag : Bool
  /-- A picture and only extenders after it came last. -/
  picture : Bool
  /-- The same, then a joiner. -/
  joinedPicture : Bool
  conjunct : Conjunct
  deriving Repr

namespace ClusterState

/-- What is remembered after a character; `before` is what came earlier in the same cluster. -/
def next (before : Option ClusterState) (c : Char) : ClusterState :=
  let role := ClusterRole.of c
  let picture := before.any (·.picture)
  let conjunct := (before.map (·.conjunct)).getD .none
  { last := role
    halfFlag := role == .flagHalf && !before.any (·.halfFlag)
    picture := role == .picture || (role == .extender && picture)
    joinedPicture := role == .joiner && picture
    conjunct :=
      if conjunctConsonants.contains c then .consonant
      else if isConjunctLinker c then if conjunct == .none then .none else .linked
      else if role == .extender || role == .joiner then conjunct
      else .none }

/-- Whether a cluster goes on with a character. -/
def joins (s : ClusterState) (c : Char) : Bool :=
  let role := ClusterRole.of c
  match s.last, role with
  | .carriageReturn, .lineFeed => true
  | .control, _ | .carriageReturn, _ | .lineFeed, _ => false
  | _, .control | _, .carriageReturn | _, .lineFeed => false
  | .hangulLead, .hangulLead | .hangulLead, .hangulVowel => true
  | .hangulLead, .hangulOpen | .hangulLead, .hangulClosed => true
  | .hangulOpen, .hangulVowel | .hangulOpen, .hangulTail => true
  | .hangulVowel, .hangulVowel | .hangulVowel, .hangulTail => true
  | .hangulClosed, .hangulTail | .hangulTail, .hangulTail => true
  | _, .extender | _, .joiner | _, .spacingMark => true
  | .prepender, _ => true
  | _, _ =>
    (s.conjunct == .linked && conjunctConsonants.contains c) ||
      (s.joinedPicture && role == .picture) || (s.halfFlag && role == .flagHalf)

end ClusterState

/-- Clusters of a text, given the characters of the open one in reverse. -/
def clustersFrom (state : ClusterState) (opened : List Char) : List Char → List (List Char)
  | [] => [opened.reverse]
  | c :: rest =>
    if state.joins c then clustersFrom (.next (some state) c) (c :: opened) rest
    else opened.reverse :: clustersFrom (.next none c) [c] rest

/-- The clusters of a text in order; together they are the text. -/
def clusters : List Char → List (List Char)
  | [] => []
  | c :: rest => clustersFrom (.next none c) [c] rest

/-! ## Columns -/

/-- Columns of a character by itself. -/
def charColumns (c : Char) : Nat :=
  let n := c.toNat
  if n < 0x300 then if n == 0xAD then 0 else 1
  else if ignorables.contains c || graphemeExtenders.contains c then 0
  else if (0x1160 ≤ n && n ≤ 0x11FF) || (0xD7B0 ≤ n && n ≤ 0xD7FB) then 0
  else if n == 0x605 || n == 0x70F || n == 0x890 || n == 0x891 || n == 0x8E2 then 0
  else if wideCharacters.contains c then 2
  else if n == 0x2E3B then 3
  else 1

/-- Whether a cluster is a picture that something changes: joined to another, with a skin tone, or
shown as an emoji. -/
def isPictureSequence (cluster : List Char) : Bool :=
  match cluster with
  | base :: rest =>
    pictographs.contains base &&
      rest.any fun c => c.toNat == 0xFE0F || isSkinTone c || pictographs.contains c
  | [] => false

/-- Whether a cluster is the emoji of a key: a digit or sign, shown as an emoji. -/
def isKeycap (cluster : List Char) : Bool :=
  match cluster with
  | base :: mark :: _ => (base.isDigit || base == '#' || base == '*') && mark.toNat == 0xFE0F
  | _ => false

/-- Columns of a cluster. -/
def clusterColumns (cluster : List Char) : Nat :=
  if isPictureSequence cluster || isKeycap cluster then 2
  else if cluster == ['\r', '\n'] then 1
  else cluster.foldl (fun n c => n + charColumns c) 0

/-- Columns of a text. -/
def columns (text : List Char) : Nat :=
  (clusters text).foldl (fun n cluster => n + clusterColumns cluster) 0

end QueueBoard.Text
