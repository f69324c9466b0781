/-
# `Proofs.Reading.Grammar` — the grammar of expressions and types

The concrete grammar as relations between token lists and trees, one relation for
each nonterminal and one constructor for each alternative.  Nothing here says how
a derivation is found, and the grammar is ambiguous: the body of a lambda or of a
let may take the arguments, stages and assertion behind it, or leave them to the
expressions around it, and the type behind the arrow of a function type may take
the members behind it.

Trees come without parentheses.  Several members of a union, and of an
intersection, are put together in normal form.

Side conditions stand with the alternatives that they belong to.  Parameters of
a lambda, bindings of a let and fields of a record have distinct names.  The
bound of a list has no point.  An integer has at most `maxDigits` digits.  A text
with an opening mark splits into runs and balanced bodies, and each body is not
blank and is a source of its own.
-/
import TypedPrompt.Expr.Basic
import TypedPrompt.Proofs.Correspondence
import TypedPrompt.Proofs.Reading.Marks
import TypedPrompt.Reading.Expression
import TypedPrompt.Text.Blank

namespace TypedPrompt

/-- Tokens in front of the one for the end. -/
def Tokens.ofList (eof : Token) (ts : List Token) : Tokens := ts.foldr .cons (.finish eof)

/-- A name with a meaning of its own. -/
def Token.IsWord (t : Token) (word : String) : Prop := t.kind = .name ∧ t.text = word

namespace Grammar

/-- Token lists, each with what it means. -/
abbrev Phrase (α : Type) := List Token → α → Prop

/-! ## Forms of productions -/

section Forms

variable {α : Type}

/-- `a ( sep a )*` -/
inductive Separated (sep : Kind) (R : Phrase α) : Phrase (List α) where
  | last {ts : List Token} {a : α} : R ts a → Separated sep R ts [a]
  | next {ts us : List Token} {s : Token} {a : α} {as : List α} :
      R ts a → s.kind = sep → Separated sep R us as → Separated sep R (ts ++ s :: us) (a :: as)

/-- `[ a ( sep a )* ]` -/
inductive Listed (sep : Kind) (R : Phrase α) : Phrase (List α) where
  | none : Listed sep R [] []
  | some {ts : List Token} {as : List α} : Separated sep R ts as → Listed sep R ts as

/-- `a ( sep a )*`, where a single one is itself and several are put together. -/
inductive Joined (sep : Kind) (R : Phrase α) (join : List α → α) : Phrase α where
  | single {ts : List Token} {a : α} : R ts a → Joined sep R join ts a
  | several {ts : List Token} {as : List α} :
      Separated sep R ts as → 2 ≤ as.length → Joined sep R join ts (join as)

/-- `a*` -/
inductive Repeated (R : Phrase α) : Phrase (List α) where
  | nil : Repeated R [] []
  | cons {ts us : List Token} {a : α} {as : List α} :
      R ts a → Repeated R us as → Repeated R (ts ++ us) (a :: as)

/-- `[ mark a ]` -/
inductive Preceded (mark : Symbol) (R : Phrase α) : Phrase (Option α) where
  | none : Preceded mark R [] none
  | some {m : Token} {ts : List Token} {a : α} :
      m.kind = .symbol mark → R ts a → Preceded mark R (m :: ts) (some a)

/-- `left a right` -/
inductive Enclosed (left right : Symbol) (R : Phrase α) : Phrase α where
  | intro {l r : Token} {ts : List Token} {a : α} :
      l.kind = .symbol left → R ts a → r.kind = .symbol right →
      Enclosed left right R (l :: (ts ++ [r])) a

/-- `[ "?" ]` -/
inductive Question : Phrase Bool where
  | no : Question [] false
  | yes {q : Token} : q.kind = .symbol .question → Question [q] true

end Forms

/-! ## Numbers -/

/-- A number without a point, of so many digits that it can be read. -/
structure IsInteger (t : Token) : Prop where
  number : t.kind = .number
  no_point : '.' ∉ t.text.toList
  readable : t.text.toList.length ≤ maxDigits

/-- The value of a number without a point. -/
def integerOf (t : Token) : Int := natOfDigits t.text.toList

/-- `NUMBER` as a constant: an integer, or with digits behind a point a floating
point number. -/
inductive Denotes : Token → Value → Prop where
  | integer {t : Token} : IsInteger t → Denotes t (.int (integerOf t))
  | real {t : Token} : t.kind = .number → (Reading.numeral t).fraction.isSome = true →
      Denotes t (.real (Reading.numeral t).toBinary64)

/-! ## Types -/

/-- `[ "," NUMBER [ "," NUMBER ] ]`, the bounds of a list -/
inductive Bounds : Phrase (Option Int × Option Int) where
  | none : Bounds [] (none, none)
  | least {c n : Token} : c.kind = .symbol .comma → IsInteger n →
      Bounds [c, n] (some (integerOf n), none)
  | both {c n d m : Token} : c.kind = .symbol .comma → IsInteger n → d.kind = .symbol .comma →
      IsInteger m → Bounds [c, n, d, m] (some (integerOf n), some (integerOf m))

/-- `[ "," ( STRING [ "," NUMBER ] | NUMBER ) ]`, the model and the temperature of a prompt -/
inductive PromptSettings : Phrase (Option String × Option Binary64) where
  | none : PromptSettings [] (none, none)
  | model {c s : Token} : c.kind = .symbol .comma → s.kind = .string →
      PromptSettings [c, s] (some s.text, none)
  | both {c s d n : Token} : c.kind = .symbol .comma → s.kind = .string →
      d.kind = .symbol .comma → n.kind = .number →
      PromptSettings [c, s, d, n] (some s.text, some (Reading.numeral n).toBinary64)
  | temperature {c n : Token} : c.kind = .symbol .comma → n.kind = .number →
      PromptSettings [c, n] (none, some (Reading.numeral n).toBinary64)

/-- A name with its type, and whether it is marked as optional. -/
structure NamedType where
  name : String
  type : Ty
  isOptional : Bool

/-- The parameter of a function type. -/
def NamedType.param (n : NamedType) : Param Ty := ⟨n.name, n.type, n.isOptional⟩

/-- The field of a record type. -/
def NamedType.field (n : NamedType) : Field Ty := ⟨n.name, n.type, n.isOptional, none⟩

/-- The names with a meaning of their own in types. -/
def typeWords : List String :=
  Primitive.all.map Primitive.name ++ ["never", "list", "record", "dynamic", "prompt"]

mutual

/-- `type := intersection ( "|" intersection )*` -/
inductive Annotation : Phrase Ty where
  | union {ts : List Token} {t : Ty} :
      Joined (.symbol .bar) Intersection Ty.unionOf ts t → Annotation ts t

/-- `intersection := atom ( "&" atom )*` -/
inductive Intersection : Phrase Ty where
  | inter {ts : List Token} {t : Ty} :
      Joined (.symbol .ampersand) Atom Ty.interOf ts t → Intersection ts t

/-- `atom := "(" [ fparam ( "," fparam )* ] ")" "->" type | "(" type ")" | word` -/
inductive Atom : Phrase Ty where
  | function {ts us : List Token} {arrow : Token} {params : List NamedType} {returns : Ty} :
      Enclosed .leftParen .rightParen (Listed (.symbol .comma) Named) ts params →
      arrow.kind = .symbol .arrow → Annotation us returns →
      Atom (ts ++ arrow :: us) (.function (params.map NamedType.param) returns)
  | group {ts : List Token} {t : Ty} :
      Enclosed .leftParen .rightParen Annotation ts t → Atom ts t
  | word {ts : List Token} {t : Ty} : Word ts t → Atom ts t

/-- A name, alone or with arguments in brackets. -/
inductive Word : Phrase Ty where
  | primitive {n : Token} (p : Primitive) : n.IsWord p.name → Word [n] (.primitive p)
  | never {n : Token} : n.IsWord "never" → Word [n] .never
  | list {n : Token} : n.IsWord "list" → Word [n] (.list .any none none)
  | listOf {n : Token} {ts : List Token} {t : Ty} :
      n.IsWord "list" → Enclosed .leftBracket .rightBracket ListArguments ts t → Word (n :: ts) t
  | record {n : Token} : n.IsWord "record" → Word [n] (.record [] true)
  | recordOf {n : Token} {ts : List Token} {fields : List NamedType} :
      n.IsWord "record" →
      Enclosed .leftBrace .rightBrace (Listed (.symbol .comma) Named) ts fields →
      (fields.map NamedType.name).Nodup →
      Word (n :: ts) (.record (fields.map NamedType.field) true)
  | dynamic {n : Token} : n.IsWord "dynamic" → Word [n] .dynamic
  | dynamicOf {n : Token} {ts : List Token} {t : Ty} :
      n.IsWord "dynamic" → Enclosed .leftBracket .rightBracket Annotation ts t →
      Word (n :: ts) (.dynamicOf t)
  | prompt {n : Token} : n.IsWord "prompt" → Word [n] (.prompt .any .any none none)
  | promptOf {n : Token} {ts : List Token} {t : Ty} :
      n.IsWord "prompt" → Enclosed .leftBracket .rightBracket PromptArguments ts t →
      Word (n :: ts) t
  | other {n : Token} : n.kind = .name → n.text ∉ typeWords → Word [n] .any

/-- `type [ "," NUMBER [ "," NUMBER ] ]` -/
inductive ListArguments : Phrase Ty where
  | intro {ts us : List Token} {element : Ty} {least most : Option Int} :
      Annotation ts element → Bounds us (least, most) →
      ListArguments (ts ++ us) (.list element least most)

/-- `type "," type [ "," ( STRING [ "," NUMBER ] | NUMBER ) ]` -/
inductive PromptArguments : Phrase Ty where
  | intro {ts us vs : List Token} {c : Token} {input output : Ty} {model : Option String}
      {temperature : Option Binary64} :
      Annotation ts input → c.kind = .symbol .comma → Annotation us output →
      PromptSettings vs (model, temperature) →
      PromptArguments (ts ++ c :: (us ++ vs)) (.prompt input output model temperature)

/-- `IDENT [ "?" ] ":" type [ "?" ]` -/
inductive Named : Phrase NamedType where
  | intro {n c : Token} {qs ts rs : List Token} {early late : Bool} {t : Ty} :
      n.kind = .name → Question qs early → c.kind = .symbol .colon → Annotation ts t →
      Question rs late → Named (n :: (qs ++ c :: (ts ++ rs))) ⟨n.text, t, early || late⟩

end

/-! ## Expressions -/

/-- The stages of a pipeline, put together. -/
def pipelineOf : List Expr → Expr
  | [] => .pipeline Location.unknown []
  | stage :: stages => .pipeline stage.loc (stage :: stages)

/-- A token whose text may have interpolations in it. -/
def IsTextLiteral (t : Token) : Prop := t.kind = .string ∨ t.kind = .template

variable (file : String)

/-- The place of a token in the file. -/
def placeIn (t : Token) : Location := ⟨t.start, file⟩

mutual

/-- `expression := pipeline [ "::" type ]` -/
inductive Expression : Phrase Expr where
  | pipeline {ts : List Token} {e : Expr} : Pipeline ts e → Expression ts e
  | assertion {ts us : List Token} {mark : Token} {e : Expr} {t : Ty} :
      Pipeline ts e → mark.kind = .symbol .doubleColon → Annotation us t →
      Expression (ts ++ mark :: us) (.assertion e.loc e t)

/-- `pipeline := application ( "|>" application )*` -/
inductive Pipeline : Phrase Expr where
  | stages {ts : List Token} {e : Expr} :
      Joined (.symbol .pipe) Application pipelineOf ts e → Pipeline ts e

/-- `application := primary primary*` -/
inductive Application : Phrase Expr where
  | alone {ts : List Token} {e : Expr} : Primary ts e → Application ts e
  | applied {ts us : List Token} {function : Expr} {arguments : List Expr} :
      Primary ts function → Repeated Primary us arguments → arguments ≠ [] →
      Application (ts ++ us) (.application function.loc function arguments)

/-- `STRING | TEMPLATE | NUMBER | BOOLEAN | IDENT` -/
inductive Single : Token → Expr → Prop where
  | text {t : Token} : IsTextLiteral t → ¬ Piece.openMark <:+: t.text.toList →
      Single t (.literal (placeIn file t) (.str t.text))
  | template {t : Token} {pieces : List Piece} {parts : List (Part Expr)} :
      IsTextLiteral t → Piece.openMark <:+: t.text.toList →
      Piece.Split (Reading.textStart t) t.text.toList pieces → List.Forall₂ PartOf pieces parts →
      Single t (.template (placeIn file t) parts)
  | number {t : Token} {v : Value} : Denotes t v → Single t (.literal (placeIn file t) v)
  | boolean {t : Token} : t.kind = .boolean →
      Single t (.literal (placeIn file t) (.bool (t.text == "true")))
  | identifier {t : Token} : t.kind = .name → Single t (.identifier (placeIn file t) t.text)

/-- `primary := STRING | TEMPLATE | NUMBER | BOOLEAN | IDENT | "(" expression ")" | lambda
| "let" binding ( "," binding )* "in" expression`, where
`lambda := "(" [ param ( "," param )* ] ")" [ ":" type ] "->" expression` -/
inductive Primary : Phrase Expr where
  | single {t : Token} {e : Expr} : Single t e → Primary [t] e
  | group {ts : List Token} {e : Expr} :
      Enclosed .leftParen .rightParen Expression ts e → Primary ts e
  | lambda {l r arrow : Token} {ts us vs : List Token} {params : List (Parameter Expr)}
      {returns : Option Ty} {body : Expr} :
      l.kind = .symbol .leftParen → Listed (.symbol .comma) LambdaParameter ts params →
      (params.map Parameter.name).Nodup → r.kind = .symbol .rightParen →
      Preceded .colon Annotation us returns → arrow.kind = .symbol .arrow → Expression vs body →
      Primary (l :: (ts ++ r :: (us ++ arrow :: vs)))
        (.lambda (placeIn file l) params body returns)
  | letIn {l i : Token} {ts us : List Token} {bindings : List (Binding Expr)} {body : Expr} :
      l.kind = .keyword .letWord → Separated (.symbol .comma) LetBinding ts bindings →
      (bindings.map Binding.name).Nodup → i.kind = .keyword .inWord → Expression us body →
      Primary (l :: (ts ++ i :: us)) (.letIn (placeIn file l) bindings body)

/-- `param := IDENT [ ":" type ] [ "=" expression ]` -/
inductive LambdaParameter : Phrase (Parameter Expr) where
  | intro {n : Token} {ts us : List Token} {type : Option Ty} {default : Option Expr} :
      n.kind = .name → Preceded .colon Annotation ts type → Preceded .equals Expression us default →
      LambdaParameter (n :: (ts ++ us)) ⟨n.text, type, default⟩

/-- `binding := IDENT [ ":" type ] "=" expression` -/
inductive LetBinding : Phrase (Binding Expr) where
  | intro {n q : Token} {ts us : List Token} {type : Option Ty} {value : Expr} :
      n.kind = .name → Preceded .colon Annotation ts type → q.kind = .symbol .equals →
      Expression us value → LetBinding (n :: (ts ++ q :: us)) ⟨n.text, type, value⟩

/-- A part of a template, from a piece of its text. -/
inductive PartOf : Piece → Part Expr → Prop where
  | text {cs : List Char} : PartOf (.text cs) (.text (String.ofList cs))
  | body {start : Position} {cs : List Char} {eof : Token} {ts : List Token} {e : Expr} :
      ¬ cs.all Text.isBlank → tokensOf start cs = Tokens.ofList eof ts → Expression ts e →
      PartOf (.body start cs) (.embed e)

end

end Grammar

end TypedPrompt
