import Mathlib.Data.List.Basic
/-!
# JSON texts

What a program sees of JSON when it only encodes and decodes: `parse` and
`stringify`, which values are strings, and which is null. `Json.texts` is a small
instance: a string is written as a literal with its quotes and
backslashes escaped, and any other value stands for itself, as the text
that is its encoding.
-/

namespace Ecommerce

/-- JSON values `V`, their texts, and the strings and the null among them. -/
structure Json (V : Type) where
  /-- `JSON.parse`. -/
  parse : String → Except String V
  /-- `JSON.stringify`. -/
  stringify : V → String
  /-- A string as a value. -/
  string : String → V
  /-- The string a value is, if `typeof` says it is one. -/
  asString : V → Option String
  /-- Whether a value is null, of which no member can be read. -/
  isNull : V → Bool

namespace Json

/-- **Parsing undoes encoding.** -/
structure Lawful {V : Type} (J : Json V) : Prop where
  parse_stringify : ∀ v, J.parse (J.stringify v) = .ok v
  asString_string : ∀ text, J.asString (J.string text) = some text

/-- `"` -/
def quote : Char := Char.ofNat 34

/-- `\` -/
def backslash : Char := Char.ofNat 92

/-- A value: a string, or the text of something else, which does not begin with a quote. -/
inductive Text
  | string (text : String)
  | other (text : { cs : List Char // cs.head? ≠ some quote })

namespace Text

/-- The characters of a string literal. -/
def escape : List Char → List Char
  | [] => []
  | c :: cs => if c = quote ∨ c = backslash then backslash :: c :: escape cs else c :: escape cs

/-- What a literal stands for, up to its closing quote, which ends the text. -/
def unescape : List Char → Option (List Char)
  | [] => none
  | c :: cs =>
    if c = quote then if cs.isEmpty then some [] else none
    else if c = backslash then
      match cs with
      | [] => none
      | d :: ds => (unescape ds).map (d :: ·)
    else (unescape cs).map (c :: ·)

theorem unescape_escape (cs : List Char) : unescape (escape cs ++ [quote]) = some cs := by
  induction cs with
  | nil => rfl
  | cons c cs ih =>
    rw [escape]
    split
    · -- An escaped character is taken as it is.
      change (unescape (escape cs ++ [quote])).map (c :: ·) = _
      rw [ih, Option.map_some]
    · rename_i hc
      rw [List.cons_append, unescape.eq_def]
      dsimp only
      rw [if_neg fun h => hc (.inl h), if_neg fun h => hc (.inr h), ih, Option.map_some]

/-- `JSON.parse`. -/
def parse (text : String) : Except String Text :=
  if h : text.toList.head? = some quote then
    match unescape text.toList.tail with
    | some cs => .ok (.string (String.ofList cs))
    | none => .error "Unterminated string in JSON"
  else .ok (.other ⟨text.toList, h⟩)

/-- `JSON.stringify`. -/
def stringify : Text → String
  | .string text => String.ofList (quote :: (escape text.toList ++ [quote]))
  | .other text => String.ofList text.1

/-- Whether a value is a string. -/
def asString : Text → Option String
  | .string text => some text
  | .other _ => none

/-- Whether a value is null. -/
def isNull : Text → Bool
  | .string _ => false
  | .other text => text.1 = ['n', 'u', 'l', 'l']

theorem parse_stringify (v : Text) : parse (stringify v) = .ok v := by
  cases v with
  | string text =>
    have hlist : (stringify (.string text)).toList = quote :: (escape text.toList ++ [quote]) :=
      String.toList_ofList
    rw [parse, dif_pos (by rw [hlist]; rfl), hlist, List.tail_cons, unescape_escape]
    simp only [String.ofList_toList]
  | other text =>
    have hlist : (stringify (.other text)).toList = text.1 := String.toList_ofList
    rw [parse, dif_neg (by rw [hlist]; exact text.2)]
    simp only [hlist]

end Text

/-- JSON as its texts. -/
def texts : Json Text := ⟨Text.parse, Text.stringify, Text.string, Text.asString, Text.isNull⟩

@[simp] theorem isNull_texts (v : Text) : texts.isNull v = v.isNull := rfl

theorem lawful_texts : texts.Lawful := ⟨Text.parse_stringify, fun _ => rfl⟩

/-! ## Objects -/

namespace Text

/-- The text of a string. -/
def literal (text : String) : String := stringify (.string text)

/-- The text of an array. -/
def array (values : List String) : String := "[" ++ ",".intercalate values ++ "]"

/-- The text of an object. -/
def braces (members : List (String × String)) : String :=
  "\x7b" ++ ",".intercalate (members.map fun m => literal m.1 ++ ":" ++ m.2) ++ "\x7d"

theorem head?_braces (members : List (String × String)) :
    (braces members).toList.head? ≠ some quote := by
  unfold braces
  rw [String.toList_append, String.toList_append]
  exact fun h => absurd (Option.some.inj h) (by decide)

/-- An object. -/
def object (members : List (String × String)) : Text :=
  .other ⟨(braces members).toList, head?_braces members⟩

/-- An object is not null. -/
theorem isNull_object (members : List (String × String)) : (object members).isNull = false := by
  refine decide_eq_false fun heq => ?_
  change (braces members).toList = _ at heq
  unfold braces at heq
  rw [String.toList_append, String.toList_append] at heq
  exact absurd (List.cons.inj heq).1 (by decide)

end Text

end Json

end Ecommerce
