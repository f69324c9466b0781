/-
# `Yaml.Tag` — kinds of nodes

Every node of a document has a tag, which says what its text or its parts are to
be taken for.  A tag is written in front of a node, or else it follows from the
node: a scalar in quotes is a text, and the tag of a plain scalar is settled by
its spelling alone, by the patterns of YAML 1.1.  Truth values have three pairs
of words in three casings each; integers may be binary, octal, decimal,
hexadecimal or in base sixty and may hold underscores; a floating point number
has a point, and a sign in its exponent if it has one.
-/
import TypedPrompt.Text.Hexadecimal
import TypedPrompt.Yaml.Moment

namespace TypedPrompt.Yaml

/-- What a node is to be taken for. -/
inductive Tag where
  | null
  | boolean
  | integer
  | real
  | moment
  | text
  | sequence
  | mapping
  /-- the key of entries that are merged into a mapping -/
  | merge
  /-- the key of the entry that stands for its mapping -/
  | standIn
  /-- a tag that says nothing here -/
  | unknown
  deriving DecidableEq, Repr

/-! ## Words -/

/-- A word in lower case, with a capital, and in capitals. -/
def casings (word : String) : List String := [word, word.capitalize, word.toUpper]

/-- The spellings of null. -/
def nullWords : List String := "" :: "~" :: casings "null"

/-- The words for truth, in lower case. -/
def trueWords : List String := ["yes", "true", "on"]

/-- The words for falsehood, in lower case. -/
def falseWords : List String := ["no", "false", "off"]

/-- The spellings of the truth values. -/
def booleanWords : List String := (trueWords ++ falseWords).flatMap casings

/-- The spellings of the infinity without a sign. -/
def infinityWords : List String := [".inf", ".Inf", ".INF"]

/-- The spellings of the value that is no number. -/
def nanWords : List String := [".nan", ".NaN", ".NAN"]

/-! ## Numbers -/

/-- What is behind a sign, if there is one. -/
def behindSign : List Char → List Char
  | '-' :: cs => cs
  | '+' :: cs => cs
  | cs => cs

/-- A digit of a base up to sixteen. -/
def isDigitOf (base : Nat) (c : Char) : Bool :=
  match Text.hexValue? c with
  | some d => decide (d < base)
  | none => false

/-- A digit of a base, or an underscore. -/
def isDigitOrGap (base : Nat) (c : Char) : Bool := c == '_' || isDigitOf base c

/-- A decimal digit, with any digits and underscores behind it. -/
def isDigits : List Char → Bool
  | c :: cs => isDigitOf 10 c && cs.all (isDigitOrGap 10)
  | [] => false

/-- The parts of a text between colons. -/
def splitColons (cs : List Char) : List (List Char) :=
  cs.foldr (fun c parts => if c = ':' then [] :: parts else
    match parts with
    | [] => [[c]]
    | part :: rest => (c :: part) :: rest) [[]]

/-- One or two digits that stand for a number below sixty. -/
def isSixtieth (cs : List Char) : Bool :=
  !cs.isEmpty && decide (cs.length ≤ 2) && cs.all Text.isDigit && decide (natOfDigits cs < 60)

/-- Digits and numbers below sixty behind them, between colons. -/
def isSexagesimal (cs : List Char) : Bool :=
  match splitColons cs with
  | first :: second :: rest => isDigits first && (second :: rest).all isSixtieth
  | _ => false

/-- An integer without its sign. -/
def isUnsignedInteger : List Char → Bool
  | ['0'] => true
  | '0' :: 'b' :: cs => !cs.isEmpty && cs.all (isDigitOrGap 2)
  | '0' :: 'x' :: cs => !cs.isEmpty && cs.all (isDigitOrGap 16)
  | '0' :: cs => cs.all (isDigitOrGap 8)
  | cs => isDigits cs || isSexagesimal cs

/-- An integer. -/
def isInteger (cs : List Char) : Bool := isUnsignedInteger (behindSign cs)

/-- The exponent at the end of a floating point number: nothing, or a letter, a
sign and digits. -/
def isExponent : List Char → Bool
  | [] => true
  | letter :: sign :: ds =>
      (letter == 'e' || letter == 'E') && (sign == '-' || sign == '+') && !ds.isEmpty
        && ds.all Text.isDigit
  | _ => false

/-- A floating point number that is written with digits.  It may begin with its
point if it has no sign and a digit behind the point; in base sixty it has no exponent. -/
def isDecimal (cs : List Char) : Bool :=
  let body := behindSign cs
  let whole := body.takeWhile (· ≠ '.')
  match body.dropWhile (· ≠ '.') with
  | '.' :: rest =>
      let fraction := rest.takeWhile (isDigitOrGap 10)
      let exponent := rest.dropWhile (isDigitOrGap 10)
      if whole.isEmpty then body.length == cs.length && isDigits fraction && isExponent exponent
      else (isDigits whole && isExponent exponent) || (isSexagesimal whole && exponent.isEmpty)
  | _ => false

/-- A floating point number. -/
def isReal (cs : List Char) : Bool :=
  isDecimal cs || decide (String.ofList (behindSign cs) ∈ infinityWords)
    || decide (String.ofList cs ∈ nanWords)

/-! ## Tags of scalars and by name -/

/-- The tag of a plain scalar. -/
def Tag.ofPlain (cs : List Char) : Tag :=
  let word := String.ofList cs
  if word ∈ booleanWords then .boolean
  else if isReal cs then .real
  else if isInteger cs then .integer
  else if word = "<<" then .merge
  else if word ∈ nullWords then .null
  else if looksLikeMoment cs then .moment
  else if word = "=" then .standIn
  else .text

/-- What the names of the common tags begin with. -/
def commonTags : String := "tag:yaml.org,2002:"

/-- The names of the common tags, without their beginning. -/
def tagNames : List (String × Tag) :=
  [("null", .null), ("bool", .boolean), ("int", .integer), ("float", .real),
   ("timestamp", .moment), ("str", .text), ("seq", .sequence), ("map", .mapping),
   ("merge", .merge), ("value", .standIn)]

/-- The tag of a name. -/
def Tag.ofName (name : String) : Tag :=
  ((tagNames.find? fun entry => commonTags ++ entry.1 == name).map Prod.snd).getD .unknown

end TypedPrompt.Yaml
