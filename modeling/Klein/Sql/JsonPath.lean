import Klein.Json
import Klein.Fallible
import Mathlib.Data.List.DropRight
import Mathlib.Data.Nat.Digits.Defs

/-! JSON paths of the SQL functions. `_json_path` scans the text of a path, and
`_extract_json` follows its parts through a document. `ast.literal_eval` and the digits
that `int` knows are parameters. -/
namespace Klein.Sql.JsonPath
open List Option

abbrev Text := List Char

inductive Part where
  | key (name : Text)
  | index (position : Int)
  | wildcard
deriving DecidableEq

inductive Raised where
  | valueError (text : String)
  | typeError (text : String)
  | literalError (raised : String)
deriving DecidableEq

inductive Literal where
  | text (value : Text)
  | other

/-! ### String literals of the language -/

def escaped : Char → Option Char
  | '\\' => some '\\'
  | '\'' => some '\''
  | '"' => some '"'
  | 'a' => some '\x07'
  | 'b' => some '\x08'
  | 't' => some '\t'
  | 'n' => some '\n'
  | 'v' => some '\x0b'
  | 'f' => some '\x0c'
  | 'r' => some '\r'
  | _ => none

def hexDigit (digit : Char) : Option Nat :=
  if digit.isDigit then some (digit.toNat - '0'.toNat)
  else if 'a' ≤ digit ∧ digit ≤ 'f' then some (digit.toNat - 'a'.toNat + 10)
  else if 'A' ≤ digit ∧ digit ≤ 'F' then some (digit.toNat - 'A'.toNat + 10)
  else none

def hexChar (high low : Char) : Option Char := do
  return Char.ofNat (16 * (← hexDigit high) + (← hexDigit low))

def unwritable (char : Char) : Bool := char = '\\' || char = '\n' || char = '\r' || char = '\x00'

def readBody (mark : Char) : Text → Option Text
  | [] => none
  | '\\' :: 'x' :: high :: low :: rest => do return (← hexChar high low) :: (← readBody mark rest)
  | '\\' :: char :: rest => do return (← escaped char) :: (← readBody mark rest)
  | char :: rest =>
    if char = mark then if rest = [] then some [] else none
    else if unwritable char then none
    else (readBody mark rest).map (char :: ·)

def isMark (char : Char) : Bool := char = '\'' || char = '"'

def readLiteral : Text → Option Text
  | [] => none
  | mark :: rest => if isMark mark then readBody mark rest else none

theorem readBody_cons (mark char : Char) (rest : Text) (plain : char ≠ '\\') : readBody mark (char :: rest) =
    if char = mark then if rest = [] then some [] else none
    else if unwritable char then none else (readBody mark rest).map (char :: ·) := by
  rw [readBody]
  · exact fun _ _ _ same _ => plain same
  · exact fun _ _ same _ => plain same

theorem readBody_escape (mark char : Char) (rest : Text) (short : char ≠ 'x') : readBody mark ('\\' :: char :: rest) =
    (do return (← escaped char) :: (← readBody mark rest)) := by
  rw [readBody]
  exact fun _ _ _ same _ => short same

theorem readBody_closed (mark : Char) (opened more value : Text) (marked : isMark mark = true) (further : more ≠ [])
    (reads : readBody mark opened = some value) : readBody mark (opened ++ more) = none := by
  have slash : mark ≠ '\\' := by
    rintro rfl
    cases marked
  fun_induction readBody mark opened generalizing value with
  | case1 => cases reads
  | case2 high low rest ih =>
    obtain ⟨char,-,reads⟩ := bind_eq_some_iff.mp reads
    obtain ⟨tail,reads,-⟩ := bind_eq_some_iff.mp reads
    simp [readBody,ih tail reads]
  | case3 char rest other ih =>
    obtain ⟨letter,known,reads⟩ := bind_eq_some_iff.mp reads
    obtain ⟨tail,reads,-⟩ := bind_eq_some_iff.mp reads
    have short : char ≠ 'x' := by
      rintro rfl
      cases known
    rw [cons_append,cons_append,readBody_escape mark char _ short,ih tail reads]
    simp
  | case4 =>
    rw [singleton_append,readBody_cons mark mark more slash,if_pos rfl,if_neg further]
  | case5 => cases reads
  | case6 => cases reads
  | case7 char rest hexed lettered differs writable ih =>
    obtain ⟨tail,reads,-⟩ := map_eq_some_iff.mp reads
    have plain : char ≠ '\\' := by
      rintro rfl
      exact writable rfl
    rw [cons_append,readBody_cons mark char _ plain,if_neg differs,if_neg writable,ih tail reads]
    rfl

theorem readLiteral_closed (opened more value : Text) (further : more ≠ []) (reads : readLiteral opened = some value) :
    readLiteral (opened ++ more) = none := by
  cases opened with
  | nil => cases reads
  | cons mark rest =>
    simp only [readLiteral,cons_append] at reads ⊢
    split at reads
    next marked =>
      rw [if_pos marked]
      exact readBody_closed mark rest more value marked further reads
    next => cases reads

def writeChar (char : Char) : Text :=
  if char = '\x00' then "\\x00".toList
  else if char = '\n' then "\\n".toList
  else if char = '\r' then "\\r".toList
  else if char = '\\' ∨ char = '\'' then ['\\',char]
  else [char]

structure Python where
  repr : Text → String
  literalEval : Text → Except String Literal
  decimal : Char → Option Nat
  digitLimit : Nat
  string_literals : ∀ text value, readLiteral text = some value → literalEval text = .ok (.text value)
  unterminated_literals : ∀ text value opened, readLiteral text = some value → opened <+: text → opened ≠ text →
    ∃ raised, literalEval opened = .error raised
  ascii_digits : ∀ digit, digit.isDigit = true → decimal digit = some (digit.toNat - '0'.toNat)

section scan
variable (python : Python)

def isSpace (char : Char) : Bool :=
  let code := char.toNat
  (9 ≤ code && code ≤ 13) || (28 ≤ code && code ≤ 32) || code = 0x85 || code = 0xa0 || code = 0x1680 ||
    (0x2000 ≤ code && code ≤ 0x200a) || code = 0x2028 || code = 0x2029 || code = 0x202f || code = 0x205f || code = 0x3000

def strip (text : Text) : Text := (text.dropWhile isSpace).rdropWhile isSpace

/-- The digits of `int`, which single underscores may part. -/
def readDigits : Text → Option (List Nat)
  | [] => none
  | [char] => (python.decimal char).map ([·])
  | char :: '_' :: rest => do return (← python.decimal char) :: (← readDigits rest)
  | char :: next :: rest => do return (← python.decimal char) :: (← readDigits (next :: rest))

def number (digits : List Nat) : Nat := digits.foldl (fun sofar digit => 10 * sofar + digit) 0

def unsigned (text : Text) : Option Nat :=
  match readDigits python text with
  | none => none
  | some digits => if python.digitLimit < digits.length then none else some (number digits)

/-- `int` of a stripped text. -/
def int : Text → Option Int
  | '-' :: rest => (unsigned python rest).map (fun size => - (size : Int))
  | '+' :: rest => (unsigned python rest).map (fun size => (size : Int))
  | text => (unsigned python text).map (fun size => (size : Int))

/-- `_integer` of a text. -/
def integer (token : Text) (label : String) : Except Raised Int :=
  match int python token with
  | some value => .ok value
  | none => .error (.typeError (label ++ " must be an integer"))

def invalid (path : Text) : Raised := .valueError ("invalid JSON path " ++ python.repr path)

def bracketToken (path token : Text) : Except Raised Part :=
  if token = ['*'] then .ok .wildcard
  else if (token.head?.map isMark).getD false then
    match python.literalEval token with
    | .error raised => .error (.literalError raised)
    | .ok (.text value) => .ok (.key value)
    | .ok .other => .error (invalid python path)
  else (integer python token "JSON array index").map .index

/-- `_json_bracket_part`; `rest` is the path behind the bracket. -/
def jsonBracketPart (path rest : Text) : Except Raised (Part × Text) :=
  match rest.dropWhile (· ≠ ']') with
  | [] => .error (invalid python path)
  | _ :: later => (bracketToken python path (strip (rest.takeWhile (· ≠ ']')))).map (fun part => (part,later))

def inDotted (char : Char) : Bool := char ≠ '.' && char ≠ '['

def dottedPart (path rest : Text) : Except Raised (Part × Text) :=
  let key := rest.takeWhile inDotted
  if key = [] then .error (invalid python path)
  else .ok (if key = ['*'] then .wildcard else .key key,rest.dropWhile inDotted)

def nextPart (path : Text) (char : Char) (rest : Text) : Except Raised (Part × Text) :=
  if char = '.' then dottedPart python path rest
  else if char = '[' then jsonBracketPart python path rest
  else .error (invalid python path)

/-- The loop of `_json_path` with `fuel` rounds; no outcome where they do not suffice. -/
def scan (path : Text) : Nat → Text → List Part → Option (Except Raised (List Part))
  | _, [], parts => some (.ok parts)
  | 0, _ :: _, _ => none
  | fuel + 1, char :: rest, parts =>
    match nextPart python path char rest with
    | .error raised => some (.error raised)
    | .ok (part,later) => scan path fuel later (parts ++ [part])

/-- `_json_path` of a text. -/
def jsonPath : Text → Option (Except Raised (List Part))
  | '$' :: rest => scan python ('$' :: rest) rest.length rest []
  | _ => some (.error (.valueError "JSON path must start with '$'"))

end scan

/-! ### Extraction -/

inductive Component where
  | root
  | wildcard
  | key (name : Text)
  | subscript (position : Int)
  | unsupported (sql : String)

inductive PathArgument where
  | components (path : List Component)
  | text (path : Text)
  | other

/-- `_sqlglot_json_path` -/
def sqlglotJsonPath (reprSql : String → String) : List Component → Except Raised (List Part)
  | [] => .ok []
  | .root :: rest => sqlglotJsonPath reprSql rest
  | .wildcard :: rest => do return .wildcard :: (← sqlglotJsonPath reprSql rest)
  | .key name :: rest => do return .key name :: (← sqlglotJsonPath reprSql rest)
  | .subscript position :: rest => do return .index position :: (← sqlglotJsonPath reprSql rest)
  | .unsupported sql :: _ => .error (.valueError ("unsupported JSON path component " ++ reprSql sql))

def PathArgument.parts (python : Python) : PathArgument → Option (Except Raised (List Part))
  | .components path => some (sqlglotJsonPath (fun sql => python.repr sql.toList) path)
  | .text path => jsonPath python path
  | .other => some (.error (.valueError "JSON path must start with '$'"))

/-- `_json_child`; `none` is the missing value. -/
def jsonChild : Part → Json → Option Json
  | .index position, .list items =>
    if 0 ≤ position ∧ position < items.length then items[position.toNat]?
    else if -(items.length : Int) ≤ position ∧ position < 0 then items[(items.length + position).toNat]?
    else none
  | .key name, value => value.mapping?.bind (fun mapping => mapping.get? (String.ofList name))
  | _, _ => none

def children : Json → List Json
  | .list items => items
  | value => (value.mapping?.map Dict.values).getD []

def nextValues (values : List Json) : Part → List Json
  | .wildcard => values.flatMap children
  | part => values.filterMap (jsonChild part)

/-- The loop of `_extract_json`. -/
def extractLoop : List Part → List Json → Bool → Json
  | [], values, usedWildcard => if usedWildcard then .list values else values.headD .null
  | part :: parts, values, usedWildcard =>
    match nextValues values part with
    | [] => .null
    | next :: more => extractLoop parts (next :: more) (usedWildcard || part = .wildcard)

/-- `_extract_json` -/
def extractJson (python : Python) (document : Json) (path : PathArgument) : Option (Except Raised Json) :=
  (path.parts python).map (fun parts => parts.map (fun parts => extractLoop parts [document] false))

/-! ### What a path selects -/

def select : List Part → Json → List Json
  | [], value => [value]
  | .wildcard :: parts, value => (children value).flatMap (select parts)
  | part :: parts, value =>
    match jsonChild part value with
    | some child => select parts child
    | none => []

def reference (parts : List Part) (document : Json) : Json :=
  match select parts document with
  | [] => .null
  | first :: others => if .wildcard ∈ parts then .list (first :: others) else first

end Klein.Sql.JsonPath
