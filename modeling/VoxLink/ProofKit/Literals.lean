import Mathlib.Tactic

/-! JavaScript files that export one object literal: their tokens, the properties they export, and
the texts that write a literal. A text that is not read here may still be a program, of which
nothing is said. -/

namespace ProofKit.Literals

inductive Token where
  | word (name : String)
  | mark (c : Char)
  | text (content : String)
deriving DecidableEq, Repr

/-- Where in the text the lexer is, with what it has read of the token there, the last character
first. -/
inductive Mode where
  | code
  | word (read : List Char)
  | slash
  | comment
  | text (quote : Char) (read : List Char)
  | escape (quote : Char) (read : List Char)
  /-- After `\u`, with the digits that are left to read and the number that the others write. -/
  | unicode (quote : Char) (read : List Char) (left value : Nat)
deriving DecidableEq, Repr

def isLetter (c : Char) : Bool := c.isAlpha || c = '_' || c = '$'

def isMark (c : Char) : Bool := ['{', '}', '[', ']', '(', ')', ':', ',', ';', '.', '='].contains c

def isSpace (c : Char) : Bool := [' ', '\t', '\n', '\r'].contains c

/-- The ends of a line that a string must not contain. -/
def isLineEnd (c : Char) : Bool := c = '\n' || c = '\r'

/-- The lines of comments end at two more characters. -/
def endsComment (c : Char) : Bool := isLineEnd c || c = '\u2028' || c = '\u2029'

def hexDigits : List Char := "0123456789abcdef".toList

def hexValue (c : Char) : Option Nat :=
  let n := hexDigits.idxOf c.toLower
  if n < 16 then some n else none

/-- The characters that JSON writes with a backslash, after what follows the backslash. -/
def jsonEscapes : List (Char × Char) :=
  [('b', '\x08'), ('f', '\x0c'), ('n', '\n'), ('r', '\r'), ('t', '\t'), ('"', '"'), ('\\', '\\')]

def escapes : List (Char × Char) := jsonEscapes ++ [('\'', '\''), ('/', '/')]

def Mode.begin (c : Char) : Option (List Token × Mode) :=
  if isSpace c then some ([], .code)
  else if c = '\'' || c = '"' then some ([], .text c [])
  else if isLetter c then some ([], .word [c])
  else if c = '/' then some ([], .slash)
  else if isMark c then some ([.mark c], .code)
  else none

/-- The tokens that end with a character, and the mode that it leaves. -/
def Mode.step (c : Char) : Mode → Option (List Token × Mode)
  | .code => begin c
  | .word read =>
    if isLetter c || c.isDigit then some ([], .word (c :: read))
    else (begin c).map fun next => (.word (String.ofList read.reverse) :: next.1, next.2)
  | .slash => if c = '/' then some ([], .comment) else none
  | .comment => some ([], if endsComment c then .code else .comment)
  | .text quote read =>
    if c = quote then some ([.text (String.ofList read.reverse)], .code)
    else if c = '\\' then some ([], .escape quote read)
    else if isLineEnd c then none
    else some ([], .text quote (c :: read))
  | .escape quote read =>
    if c = 'u' then some ([], .unicode quote read 4 0)
    else (escapes.lookup c).map fun written => ([], .text quote (written :: read))
  | .unicode quote read left value =>
    (hexValue c).bind fun digit =>
      let value := 16 * value + digit
      if 1 < left then some ([], .unicode quote read (left - 1) value)
      else if value.isValidChar then some ([], .text quote (Char.ofNat value :: read))
      else none

def lex : Mode → List Char → Option (List Token × Mode)
  | mode, [] => some ([], mode)
  | mode, c :: cs =>
    (mode.step c).bind fun next => (lex next.2 cs).map fun rest => (next.1 ++ rest.1, rest.2)

/-- The tokens of a text that ends between two of them. -/
def tokens (code : String) : Option (List Token) :=
  (lex .code code.toList).bind fun read => if read.2 = .code then some read.1 else none

inductive Value where
  | text (content : String)
  | truth (value : Bool)
  | texts (contents : List String)
  /-- A function of an event and its data, which logs them. -/
  | handler
deriving DecidableEq, Repr

/-- The rest of an array of strings. -/
def readTexts : List Token → Option (List String × List Token)
  | .mark ']' :: rest => some ([], rest)
  | .text s :: .mark ']' :: rest => some ([s], rest)
  | .text s :: .mark ',' :: rest => (readTexts rest).map fun read => (s :: read.1, read.2)
  | _ => none

def reserved : List String :=
  ["break", "case", "catch", "class", "const", "continue", "debugger", "default", "delete", "do",
    "else", "enum", "export", "extends", "false", "finally", "for", "function", "if", "import",
    "in", "instanceof", "new", "null", "return", "super", "switch", "this", "throw", "true", "try",
    "typeof", "var", "void", "while", "with", "await", "console"]

/-- The rest of `function(event, data) { console.log('text', event, data); }`. -/
def readHandler : List Token → Option (List Token)
  | .mark '(' :: .word event :: .mark ',' :: .word data :: .mark ')' :: .mark '{' ::
      .word "console" :: .mark '.' :: .word "log" :: .mark '(' :: .text _ :: .mark ',' ::
      .word event' :: .mark ',' :: .word data' :: .mark ')' :: .mark ';' :: .mark '}' :: rest =>
    if event' = event ∧ data' = data ∧ event ∉ reserved ∧ data ∉ reserved then some rest else none
  | _ => none

def readValue : List Token → Option (Value × List Token)
  | .text s :: rest => some (.text s, rest)
  | .word "true" :: rest => some (.truth true, rest)
  | .word "false" :: rest => some (.truth false, rest)
  | .mark '[' :: rest => (readTexts rest).map fun read => (.texts read.1, read.2)
  | .word "function" :: rest => (readHandler rest).map fun rest => (.handler, rest)
  | _ => none

/-- The rest of an object literal of at most `n` properties. -/
def readProperties : Nat → List Token → Option (List (String × Value) × List Token)
  | n + 1, .word key :: .mark ':' :: rest =>
    (readValue rest).bind fun read =>
      if key = "__proto__" then none else match read.2 with
      | .mark '}' :: rest => some ([(key, read.1)], rest)
      | .mark ',' :: rest =>
        (readProperties n rest).map fun more => ((key, read.1) :: more.1, more.2)
      | _ => none
  | _, _ => none

/-- The properties that a file exports by one assignment to `module.exports`. -/
def readExports (code : String) : Option (List (String × Value)) :=
  (tokens code).bind fun
    | .word "module" :: .mark '.' :: .word "exports" :: .mark '=' :: .mark '{' :: rest =>
      (readProperties rest.length rest).bind fun read =>
        if read.2 = [.mark ';'] then some read.1 else none
    | _ => none

/-! ### The texts that write a literal -/

/-- What a string of `JSON.stringify` writes for a character. -/
def escapeChar (c : Char) : List Char :=
  match jsonEscapes.find? (·.2 = c) with
  | some written => ['\\', written.1]
  | none =>
    if c.toNat < 32 then
      ['\\', 'u', '0', '0', hexDigits.getD (c.toNat / 16) '0', hexDigits.getD (c.toNat % 16) '0']
    else [c]

/-- `JSON.stringify` of a string. -/
def quote (s : String) : List Char := '"' :: s.toList.flatMap escapeChar ++ ['"']

def quoteAll : List String → List Char
  | [] => []
  | [s] => quote s
  | s :: rest => quote s ++ ',' :: quoteAll rest

/-- `JSON.stringify` of an array of strings. -/
def stringify (contents : List String) : String := String.ofList ('[' :: quoteAll contents ++ [']'])

/-- Text that stands for itself between single quotes. -/
def IsPlain (s : String) : Prop :=
  ∀ c ∈ s.toList, c ≠ '\'' ∧ c ≠ '\\' ∧ isLineEnd c = false

theorem isPlain_iff (s : String) :
    (s.toList.all fun c => c ≠ '\'' && c ≠ '\\' && !isLineEnd c) = true ↔ IsPlain s := by
  simp [IsPlain, and_assoc]

instance (s : String) : Decidable (IsPlain s) := decidable_of_iff _ (isPlain_iff s)

/-! ### Lexing -/

variable {mode next last : Mode} {a b cs : List Char} {out more : List Token} {c q : Char}
  {s : String} {read : List Char}

/-- The lexer reads `cs` from one mode to the next, and finds the tokens `out`. -/
def Lexes (mode : Mode) (cs : List Char) (out : List Token) (next : Mode) : Prop :=
  lex mode cs = some (out, next)

instance : Decidable (Lexes mode cs out next) := by unfold Lexes; infer_instance

theorem Lexes.nil : Lexes mode [] [] mode := rfl

theorem Lexes.cons (h : mode.step c = some (out, next)) (hcs : Lexes next cs more last) :
    Lexes mode (c :: cs) (out ++ more) last := by
  rw [Lexes, lex, h, Option.bind_some, hcs, Option.map_some]

theorem Lexes.append (ha : Lexes mode a out next) (hb : Lexes next b more last) :
    Lexes mode (a ++ b) (out ++ more) last := by
  induction a generalizing mode out with
  | nil =>
    obtain ⟨rfl, rfl⟩ : out = [] ∧ next = mode := by simpa [Lexes, lex, eq_comm] using ha
    exact hb
  | cons c cs ih =>
    rw [Lexes, lex] at ha
    obtain ⟨first, hfirst, hrest⟩ := Option.bind_eq_some_iff.mp ha
    obtain ⟨rest, hlex, heq⟩ := Option.map_eq_some_iff.mp hrest
    obtain ⟨rfl, rfl⟩ := Prod.mk.inj heq
    rw [List.append_assoc]
    exact Lexes.cons hfirst (ih hlex)

theorem step_text (hq : c ≠ q) (hslash : c ≠ '\\') (hline : isLineEnd c = false) :
    (Mode.text q read).step c = some ([], .text q (c :: read)) := by
  simp [Mode.step, hq, hslash, hline]

theorem step_quote : (Mode.text q read).step q =
    some ([.text (String.ofList read.reverse)], .code) := by
  simp [Mode.step]

theorem lexes_plain (h : ∀ c ∈ cs, c ≠ q ∧ c ≠ '\\' ∧ isLineEnd c = false) :
    Lexes (.text q read) cs [] (.text q (cs.reverse ++ read)) := by
  induction cs generalizing read with
  | nil => exact .nil
  | cons c cs ih =>
    obtain ⟨hq, hslash, hline⟩ := h c List.mem_cons_self
    rw [List.reverse_cons, List.append_assoc]
    exact Lexes.cons (step_text hq hslash hline) (ih fun d hd => h d (List.mem_cons_of_mem c hd))

/-- Plain text that comes after an opening quote is read up to the closing one. -/
theorem lexes_plain_quote (h : ∀ c ∈ cs, c ≠ q ∧ c ≠ '\\' ∧ isLineEnd c = false) :
    Lexes (.text q read) (cs ++ [q]) [.text (String.ofList (read.reverse ++ cs))] .code := by
  have hchars : Lexes (.text q read) cs [] (.text q (cs.reverse ++ read)) := lexes_plain h
  have hend := hchars.append (.cons step_quote .nil)
  rwa [List.reverse_append, List.reverse_reverse, List.append_nil, List.nil_append] at hend

theorem lexes_through {front back : List Char}
    (h : ∀ c ∈ front, c ≠ q ∧ c ≠ '\\' ∧ isLineEnd c = false) (hback : Lexes .code back out next) :
    Lexes (.text q read) (front ++ q :: back)
      (.text (String.ofList (read.reverse ++ front)) :: out) next := by
  have htext : Lexes (.text q read) (front ++ [q]) [.text (String.ofList (read.reverse ++ front))]
      .code := lexes_plain_quote h
  have hfile := htext.append hback
  rwa [List.append_assoc] at hfile

theorem hexValue_hexDigits : ∀ n < 16, hexValue (hexDigits.getD n '0') = some n := by decide

theorem step_escape : ∀ e ∈ jsonEscapes, ∀ q read,
    (Mode.escape q read).step e.1 = some ([], .text q (e.2 :: read)) := by
  intro e he q read
  have hread : e.1 ≠ 'u' ∧ escapes.lookup e.1 = some e.2 := by
    revert e
    decide
  rw [Mode.step, if_neg hread.1, hread.2, Option.map_some]

theorem step_unicode {left value n : Nat} (hn : n < 16) (hleft : 1 < left) :
    (Mode.unicode q read left value).step (hexDigits.getD n '0') =
      some ([], .unicode q read (left - 1) (16 * value + n)) := by
  rw [Mode.step, hexValue_hexDigits n hn, Option.bind_some, if_pos hleft]

/-- The four digits of a character below `' '`. -/
theorem lexes_unicode (hc : c.toNat < 32) : Lexes (.unicode q read 4 0)
    ['0', '0', hexDigits.getD (c.toNat / 16) '0', hexDigits.getD (c.toNat % 16) '0'] []
    (.text q (c :: read)) := by
  have hzero : (Mode.unicode q read 4 0).step '0' = some ([], .unicode q read 3 0) :=
    step_unicode (n := 0) (by decide) (by decide)
  have hzero' : (Mode.unicode q read 3 0).step '0' = some ([], .unicode q read 2 0) :=
    step_unicode (n := 0) (by decide) (by decide)
  have hhigh : (Mode.unicode q read 2 0).step (hexDigits.getD (c.toNat / 16) '0') =
      some ([], .unicode q read 1 (16 * 0 + c.toNat / 16)) :=
    step_unicode (by omega) (by decide)
  have hlow : (Mode.unicode q read 1 (c.toNat / 16)).step (hexDigits.getD (c.toNat % 16) '0') =
      some ([], .text q (c :: read)) := by
    have hvalue : 16 * (c.toNat / 16) + c.toNat % 16 = c.toNat := Nat.div_add_mod _ _
    have hvalid : c.toNat.isValidChar := c.valid
    rw [Mode.step, hexValue_hexDigits _ (Nat.mod_lt _ (by decide)), Option.bind_some, hvalue,
      if_neg (by decide), if_pos hvalid, Char.ofNat_toNat]
  rw [Nat.mul_zero, Nat.zero_add] at hhigh
  exact .cons hzero (.cons hzero' (.cons hhigh (.cons hlow .nil)))

/-- A character that JSON writes is the character that is read. -/
theorem lexes_escapeChar : Lexes (.text '"' read) (escapeChar c) [] (.text '"' (c :: read)) := by
  have hslash : (Mode.text '"' read).step '\\' = some ([], .escape '"' read) := by
    simp [Mode.step]
  unfold escapeChar
  split
  · rename_i e hfind
    obtain rfl : e.2 = c := by simpa using List.find?_some hfind
    have hread := step_escape e (List.mem_of_find?_eq_some hfind) '"' read
    exact .cons hslash (.cons hread .nil)
  rename_i hfind
  have hnone : ∀ e ∈ jsonEscapes, e.2 ≠ c := by simpa using hfind
  split
  · rename_i hlow
    have hunicode : (Mode.escape '"' read).step 'u' = some ([], .unicode '"' read 4 0) := rfl
    exact .cons hslash (.cons hunicode (lexes_unicode hlow))
  · have hquote : c ≠ '"' := fun h => hnone ('"', '"') (by decide) h.symm
    have hback : c ≠ '\\' := fun h => hnone ('\\', '\\') (by decide) h.symm
    have hline : isLineEnd c = false := by
      have hlf : c ≠ '\n' := fun h => hnone ('n', '\n') (by decide) h.symm
      have hcr : c ≠ '\r' := fun h => hnone ('r', '\r') (by decide) h.symm
      simp [isLineEnd, hlf, hcr]
    exact .cons (step_text hquote hback hline) .nil

theorem lexes_escaped : Lexes (.text '"' read) (cs.flatMap escapeChar) []
    (.text '"' (cs.reverse ++ read)) := by
  induction cs generalizing read with
  | nil => exact .nil
  | cons c cs ih =>
    rw [List.flatMap_cons, List.reverse_cons, List.append_assoc]
    exact lexes_escapeChar.append ih

/-- What `JSON.stringify` writes for a string is the literal of that string. -/
theorem lexes_quote : Lexes .code (quote s) [.text s] .code := by
  have hopen : Mode.code.step '"' = some ([], .text '"' []) := rfl
  have hchars : Lexes (.text '"' []) (s.toList.flatMap escapeChar) []
      (.text '"' (s.toList.reverse ++ [])) := lexes_escaped
  have hclose := hchars.append (.cons step_quote .nil)
  rw [List.append_nil, List.append_nil, List.reverse_reverse, String.ofList_toList] at hclose
  exact .cons hopen hclose

/-- The tokens of an array of strings, up to its bracket. -/
def textTokens : List String → List Token
  | [] => []
  | [s] => [.text s]
  | s :: rest => .text s :: .mark ',' :: textTokens rest

theorem lexes_quoteAll : ∀ {contents : List String},
    Lexes .code (quoteAll contents) (textTokens contents) .code
  | [] => .nil
  | [_] => lexes_quote
  | _ :: t :: rest => by
    have hcomma : Mode.code.step ',' = some ([.mark ','], .code) := rfl
    have hrest : Lexes .code (quoteAll (t :: rest)) (textTokens (t :: rest)) .code := lexes_quoteAll
    exact lexes_quote.append (.cons hcomma hrest)

theorem lexes_stringify (contents : List String) : Lexes .code (stringify contents).toList
    (.mark '[' :: textTokens contents ++ [.mark ']']) .code := by
  have hopen : Mode.code.step '[' = some ([.mark '['], .code) := rfl
  have hclose : Mode.code.step ']' = some ([.mark ']'], .code) := rfl
  rw [stringify, String.toList_ofList]
  exact (Lexes.cons hopen lexes_quoteAll).append (.cons hclose .nil)

theorem readTexts_textTokens {rest : List Token} : ∀ {contents : List String},
    readTexts (textTokens contents ++ .mark ']' :: rest) = some (contents, rest)
  | [] => rfl
  | [_] => rfl
  | s :: t :: contents => by
    have htail : readTexts (textTokens (t :: contents) ++ .mark ']' :: rest) =
        some (t :: contents, rest) := readTexts_textTokens
    have htokens : textTokens (s :: t :: contents) =
        .text s :: .mark ',' :: textTokens (t :: contents) := rfl
    rw [htokens, List.cons_append, List.cons_append, readTexts, htail, Option.map_some]

/-! ### Object literals -/

/-- The tokens write a value, whatever comes after them. -/
def Writes (value : Value) (written : List Token) : Prop :=
  ∀ rest, readValue (written ++ rest) = some (value, rest)

theorem writes_text : Writes (.text s) [.text s] := fun _ => rfl

theorem writes_true : Writes (.truth true) [.word "true"] := fun _ => rfl

theorem writes_texts {contents : List String} :
    Writes (.texts contents) (.mark '[' :: textTokens contents ++ [.mark ']']) := by
  intro rest
  rw [List.append_assoc, List.cons_append, readValue, List.singleton_append,
    readTexts_textTokens, Option.map_some]

/-- The tokens of `function(event, data) { console.log(`. -/
def handlerOpen (event data : String) : List Token :=
  [.word "function", .mark '(', .word event, .mark ',', .word data, .mark ')', .mark '{',
    .word "console", .mark '.', .word "log", .mark '(']

/-- The tokens of `, event, data); }`. -/
def handlerClose (event data : String) : List Token :=
  [.mark ',', .word event, .mark ',', .word data, .mark ')', .mark ';', .mark '}']

def handlerTokens (event data message : String) : List Token :=
  handlerOpen event data ++ .text message :: handlerClose event data

theorem writes_handler {event data message : String} (hevent : event ∉ reserved)
    (hdata : data ∉ reserved) : Writes .handler (handlerTokens event data message) := by
  intro rest
  simp only [handlerTokens, handlerOpen, handlerClose, List.cons_append, List.nil_append,
    readValue, readHandler, true_and]
  rw [if_pos ⟨hevent, hdata⟩, Option.map_some]

/-- The tokens of an object literal up to its brace, with the tokens that each value is written
with. -/
def propertyTokens : List (String × Value × List Token) → List Token
  | [] => []
  | [p] => .word p.1 :: .mark ':' :: p.2.2
  | p :: rest => .word p.1 :: .mark ':' :: p.2.2 ++ .mark ',' :: propertyTokens rest

variable {key : String} {value : Value} {written rest : List Token} {n : Nat}

theorem readProperties_last (hkey : key ≠ "__proto__") (hvalue : Writes value written) :
    readProperties (n + 1) (.word key :: .mark ':' :: (written ++ .mark '}' :: rest)) =
      some ([(key, value)], rest) := by
  have hread : readValue (written ++ .mark '}' :: rest) = some (value, .mark '}' :: rest) :=
    hvalue _
  simp only [readProperties, hread, Option.bind_some, if_neg hkey]

theorem readProperties_next (hkey : key ≠ "__proto__") (hvalue : Writes value written) :
    readProperties (n + 1) (.word key :: .mark ':' :: (written ++ .mark ',' :: rest)) =
      (readProperties n rest).map fun more => ((key, value) :: more.1, more.2) := by
  have hread : readValue (written ++ .mark ',' :: rest) = some (value, .mark ',' :: rest) :=
    hvalue _
  simp only [readProperties, hread, Option.bind_some, if_neg hkey]

/-- The properties that are written are the properties that are read. -/
theorem readProperties_propertyTokens : ∀ {properties : List (String × Value × List Token)}
    {n : Nat}, properties ≠ [] → properties.length ≤ n →
    (∀ p ∈ properties, p.1 ≠ "__proto__" ∧ Writes p.2.1 p.2.2) →
    readProperties n (propertyTokens properties ++ .mark '}' :: rest) =
      some (properties.map fun p => (p.1, p.2.1), rest)
  | [], _, hne, _, _ => absurd rfl hne
  | [p], n, _, hlen, hwrites => by
    obtain ⟨n, rfl⟩ := Nat.exists_eq_add_of_le' hlen
    obtain ⟨hkey, hvalue⟩ := hwrites p List.mem_cons_self
    exact readProperties_last hkey hvalue
  | p :: q :: more, n, _, hlen, hwrites => by
    obtain ⟨n, rfl⟩ := Nat.exists_eq_add_of_le' (Nat.one_le_of_lt hlen)
    obtain ⟨hkey, hvalue⟩ := hwrites p List.mem_cons_self
    have hmore : readProperties n (propertyTokens (q :: more) ++ .mark '}' :: rest) =
        some ((q :: more).map fun p => (p.1, p.2.1), rest) :=
      readProperties_propertyTokens (List.cons_ne_nil q more) (Nat.le_of_succ_le_succ hlen)
        fun r hr => hwrites r (List.mem_cons_of_mem p hr)
    have htokens : propertyTokens (p :: q :: more) ++ .mark '}' :: rest = .word p.1 :: .mark ':' ::
        (p.2.2 ++ .mark ',' :: (propertyTokens (q :: more) ++ .mark '}' :: rest)) := by
      rw [propertyTokens, List.cons_append, List.cons_append, List.append_assoc]
      · rfl
      · simp
    rw [htokens, readProperties_next hkey hvalue, hmore, Option.map_some]
    rfl

theorem length_le_propertyTokens : ∀ {properties : List (String × Value × List Token)},
    properties.length ≤ (propertyTokens properties).length
  | [] => Nat.le_refl 0
  | [_] => by simp [propertyTokens]
  | _ :: q :: more => by
    have hmore : (q :: more).length ≤ (propertyTokens (q :: more)).length :=
      length_le_propertyTokens
    simp only [propertyTokens, List.length_cons, List.length_append] at hmore ⊢
    omega

/-- A file exports the properties that it assigns to `module.exports`. -/
theorem readExports_of_lexes {code : String} {properties : List (String × Value × List Token)}
    (hlex : Lexes .code code.toList ([.word "module", .mark '.', .word "exports", .mark '=',
      .mark '{'] ++ propertyTokens properties ++ [.mark '}', .mark ';']) .code)
    (hne : properties ≠ []) (hwrites : ∀ p ∈ properties, p.1 ≠ "__proto__" ∧ Writes p.2.1 p.2.2) :
    readExports code = some (properties.map fun p => (p.1, p.2.1)) := by
  have htokens : tokens code = some (.word "module" :: .mark '.' :: .word "exports" :: .mark '=' ::
      .mark '{' :: (propertyTokens properties ++ [.mark '}', .mark ';'])) := by
    rw [tokens, hlex, Option.bind_some, if_pos rfl]
    rfl
  have hlen : properties.length ≤
      (propertyTokens properties ++ [Token.mark '}', .mark ';']).length := by
    rw [List.length_append]
    exact Nat.le_add_right_of_le length_le_propertyTokens
  have hread : readProperties _ (propertyTokens properties ++ [.mark '}', .mark ';']) =
      some (properties.map fun p => (p.1, p.2.1), [.mark ';']) :=
    readProperties_propertyTokens hne hlen hwrites
  rw [readExports, htokens, Option.bind_some]
  simp only [hread, Option.bind_some, if_true]

end ProofKit.Literals
