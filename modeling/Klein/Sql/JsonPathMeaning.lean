import Klein.Sql.JsonPath

/-! Written paths against `_json_path`, and the breadth-first loop of `_extract_json`
against the recursion over the parts. -/
namespace Klein.Sql.JsonPath
open List

/-! ### The scan ends -/

section scan
variable (python : Python)

theorem nextPart_shorter (path : Text) (char : Char) (rest later : Text) (part : Part)
    (found : nextPart python path char rest = .ok (part,later)) : later.length ≤ rest.length := by
  unfold nextPart at found
  split at found
  · unfold dottedPart at found
    dsimp only at found
    split at found
    next => cases found
    next =>
      cases found
      exact length_dropWhile_le _ _
  split at found
  · unfold jsonBracketPart at found
    split at found
    next => cases found
    next head tail dropped =>
      obtain ⟨read,-,pair⟩ := Fallible.map_ok found
      cases pair
      have bound := length_dropWhile_le (· ≠ ']') rest
      rw [dropped,length_cons] at bound
      omega
  · cases found

theorem scan_ends (path : Text) (fuel : Nat) (rest : Text) (parts : List Part) (enough : rest.length ≤ fuel) :
    ∃ outcome, scan python path fuel rest parts = some outcome := by
  induction fuel generalizing rest parts with
  | zero =>
    cases eq_nil_of_length_eq_zero (Nat.le_zero.mp enough)
    exact ⟨.ok parts,by simp [scan]⟩
  | succ fuel ih =>
    cases rest with
    | nil => exact ⟨.ok parts,by simp [scan]⟩
    | cons char rest =>
      unfold scan
      split
      next raised _ => exact ⟨.error raised,rfl⟩
      next part later found =>
        apply ih
        have shorter := nextPart_shorter python path char rest later part found
        rw [length_cons] at enough
        omega

theorem jsonPath_ends (path : Text) : ∃ outcome, jsonPath python path = some outcome := by
  unfold jsonPath
  split
  next rest => exact scan_ends python _ _ rest [] (Nat.le_refl _)
  next => exact ⟨_,rfl⟩

end scan

/-! ### Written parts -/

def Dotted (name : Text) : Prop := name ≠ [] ∧ name ≠ ['*'] ∧ ∀ char ∈ name, char ≠ '.' ∧ char ≠ '[' ∧ char ≠ ']'

structure StringLiteral where
  text : Text
  value : Text
  reads : readLiteral text = some value

/-- `str` of an integer. -/
def pythonStr (position : Int) : Text := (if position < 0 then ['-'] else []) ++ Nat.toDigits 10 position.natAbs

inductive WrittenPart where
  | dotted (name : Text) (allowed : Dotted name)
  | quoted (literal : StringLiteral)
  | index (position : Int)
  | dottedWildcard
  | bracketWildcard

namespace WrittenPart

def part : WrittenPart → Part
  | .dotted name _ => .key name
  | .quoted literal => .key literal.value
  | .index position => .index position
  | .dottedWildcard => .wildcard
  | .bracketWildcard => .wildcard

def text : WrittenPart → Text
  | .dotted name _ => '.' :: name
  | .quoted literal => '[' :: literal.text ++ [']']
  | .index position => '[' :: pythonStr position ++ [']']
  | .dottedWildcard => ['.','*']
  | .bracketWildcard => ['[','*',']']

def Readable (python : Python) : WrittenPart → Prop
  | .quoted literal => ']' ∉ literal.text
  | .index position => (Nat.toDigits 10 position.natAbs).length ≤ python.digitLimit
  | _ => True

end WrittenPart

def pathText (written : List WrittenPart) : Text := '$' :: written.flatMap WrittenPart.text

def MeansParts (python : Python) (written : List WrittenPart) : Prop :=
  jsonPath python (pathText written) = some (.ok (written.map WrittenPart.part)) ∧
    ∀ document, extractJson python document (.text (pathText written)) =
      some (.ok (reference (written.map WrittenPart.part) document))

/-! ### Reading a written part -/

theorem strip_between (first last : Char) (middle : Text) (start : isSpace first = false) (stop : isSpace last = false) :
    strip (first :: middle ++ [last]) = first :: middle ++ [last] := by
  unfold strip
  rw [cons_append,dropWhile_cons_of_neg (by simp [start])]
  rw [← cons_append,rdropWhile_concat_neg _ _ _ (by simp [stop])]

theorem strip_prefix (first : Char) (rest : Text) (start : isSpace first = false) : strip (first :: rest) <+: first :: rest := by
  unfold strip
  rw [dropWhile_cons_of_neg (by simp [start])]
  exact rdropWhile_prefix _ _

theorem takeWhile_stop (keep : Char → Bool) (name tail : Text) (all : ∀ char ∈ name, keep char = true)
    (stop : ∀ char ∈ tail.head?, keep char = false) : (name ++ tail).takeWhile keep = name ∧ (name ++ tail).dropWhile keep = tail := by
  rw [takeWhile_append_of_pos all,dropWhile_append_of_pos all]
  cases tail with
  | nil => simp
  | cons char tail =>
    have stopped : keep char = false := stop char rfl
    simp [stopped]

section reading
variable (python : Python)

def digitOf (digit : Char) : Nat := digit.toNat - '0'.toNat

theorem readDigits_digits (text : Text) (present : text ≠ []) (digits : ∀ char ∈ text, char.isDigit = true) :
    readDigits python text = some (text.map digitOf) := by
  have known : ∀ char ∈ text, python.decimal char = some (digitOf char) := fun char inside => python.ascii_digits char (digits char inside)
  fun_induction readDigits python text with
  | case1 => exact absurd rfl present
  | case2 char =>
    rw [known char mem_cons_self]
    rfl
  | case3 => exact absurd (digits '_' (by simp)) (by decide)
  | case4 char next rest notUnder ih =>
    rw [ih (by simp) (fun other inside => digits other (mem_cons_of_mem _ inside))
      (fun other inside => known other (mem_cons_of_mem _ inside)),known char mem_cons_self]
    rfl

theorem unsigned_toDigits (size : Nat) : unsigned python (Nat.toDigits 10 size) =
    if (Nat.toDigits 10 size).length ≤ python.digitLimit then some size else none := by
  have digits : ∀ char ∈ Nat.toDigits 10 size, char.isDigit = true := fun char => Nat.isDigit_of_mem_toDigits (by omega) (by omega)
  have value : number ((Nat.toDigits 10 size).map digitOf) = size := by
    calc number ((Nat.toDigits 10 size).map digitOf)
      _ = Nat.ofDigitChars 10 (Nat.toDigits 10 size) 0 := by
        rw [Nat.ofDigitChars_eq_foldl,number,foldl_map]
        rfl
      _ = size := Nat.ofDigitChars_ten_toDigits
  unfold unsigned
  rw [readDigits_digits python _ Nat.toDigits_ne_nil digits]
  simp only [length_map,value]
  split
  next many => rw [if_neg (by omega)]
  next few => rw [if_pos (by omega)]

theorem int_digits (text : Text) (present : text ≠ []) (digits : ∀ char ∈ text, char.isDigit = true) :
    int python text = (unsigned python text).map (fun size => (size : Int)) := by
  unfold int
  split
  next => exact absurd (digits '-' mem_cons_self) (by decide)
  next => exact absurd (digits '+' mem_cons_self) (by decide)
  next => rfl

theorem int_pythonStr (position : Int) : int python (pythonStr position) =
    if (Nat.toDigits 10 position.natAbs).length ≤ python.digitLimit then some position else none := by
  have digits : ∀ char ∈ Nat.toDigits 10 position.natAbs, char.isDigit = true :=
    fun char => Nat.isDigit_of_mem_toDigits (by omega) (by omega)
  unfold pythonStr
  split
  next negative =>
    rw [singleton_append,int,unsigned_toDigits]
    split
    next => exact congrArg some (by dsimp only; omega)
    next => rfl
  next positive =>
    rw [nil_append,int_digits python _ Nat.toDigits_ne_nil digits,unsigned_toDigits]
    split
    next => exact congrArg some (by dsimp only; omega)
    next => rfl

theorem space_of_isDigit (char : Char) (digit : char.isDigit = true) : isSpace char = false := by
  obtain ⟨low,high⟩ : 48 ≤ char.toNat ∧ char.toNat ≤ 57 := by
    simpa [Char.isDigit,UInt32.le_iff_toNat_le] using digit
  simp only [isSpace,Bool.or_eq_false_iff,Bool.and_eq_false_iff,decide_eq_false_iff_not]
  omega

theorem mem_pythonStr (position : Int) (char : Char) (inside : char ∈ pythonStr position) : char = '-' ∨ char.isDigit = true := by
  obtain sign | digit := mem_append.mp inside
  · left
    split at sign
    · exact mem_singleton.mp sign
    · cases sign
  · exact .inr (Nat.isDigit_of_mem_toDigits (by omega) (by omega) digit)

theorem strip_pythonStr (position : Int) : strip (pythonStr position) = pythonStr position := by
  have solid : ∀ char ∈ pythonStr position, isSpace char = false := by
    intro char inside
    obtain rfl | digit := mem_pythonStr position char inside
    · rfl
    · exact space_of_isDigit char digit
  unfold strip
  rw [dropWhile_eq_self_iff.mpr (fun long => by simp [solid _ (getElem_mem long)])]
  exact rdropWhile_eq_self_iff.mpr (fun long => by simp [solid _ (getLast_mem long)])

/-! ### One written part -/

def Starts (tail : Text) : Prop := ∀ char ∈ tail.head?, char = '.' ∨ char = '['

theorem starts_written (written : List WrittenPart) : Starts (written.flatMap WrittenPart.text) := by
  intro char first
  cases written with
  | nil => cases first
  | cons part rest =>
    cases part <;> simp [WrittenPart.text] at first <;> simp [← first]

theorem nextPart_dotted (path name tail : Text) (allowed : Dotted name) (starts : Starts tail) :
    nextPart python path '.' (name ++ tail) = .ok (.key name,tail) := by
  obtain ⟨present,star,chars⟩ := allowed
  obtain ⟨taken,dropped⟩ := takeWhile_stop inDotted name tail (fun char inside => by simp [inDotted,chars char inside])
    (fun char first => by rcases starts char first with rfl | rfl <;> rfl)
  unfold nextPart dottedPart
  rw [if_pos rfl,taken,dropped]
  simp [present,star]

theorem nextPart_dottedWildcard (path tail : Text) (starts : Starts tail) :
    nextPart python path '.' ('*' :: tail) = .ok (.wildcard,tail) := by
  obtain ⟨taken,dropped⟩ := takeWhile_stop inDotted ['*'] tail (fun char inside => mem_singleton.mp inside ▸ rfl)
    (fun char first => by rcases starts char first with rfl | rfl <;> rfl)
  rw [singleton_append] at taken dropped
  unfold nextPart dottedPart
  rw [if_pos rfl,taken,dropped]
  simp

theorem nextPart_bracket (path token later : Text) (plain : ']' ∉ token) : nextPart python path '[' (token ++ ']' :: later) =
    (bracketToken python path (strip token)).map (fun part => (part,later)) := by
  obtain ⟨taken,dropped⟩ := takeWhile_stop (· ≠ ']') token (']' :: later)
    (fun char inside => decide_eq_true (ne_of_mem_of_not_mem inside plain)) (by simp)
  unfold nextPart jsonBracketPart
  rw [if_neg (by decide),if_pos rfl,dropped,taken]

theorem readBody_ends (mark : Char) (text value : Text) (reads : readBody mark text = some value) : ∃ middle, text = middle ++ [mark] := by
  fun_induction readBody mark text generalizing value with
  | case1 => cases reads
  | case2 high low rest ih =>
    obtain ⟨char,-,reads⟩ := Option.bind_eq_some_iff.mp reads
    obtain ⟨tail,reads,-⟩ := Option.bind_eq_some_iff.mp reads
    obtain ⟨middle,rfl⟩ := ih tail reads
    exact ⟨'\\' :: 'x' :: high :: low :: middle,rfl⟩
  | case3 char rest other ih =>
    obtain ⟨letter,-,reads⟩ := Option.bind_eq_some_iff.mp reads
    obtain ⟨tail,reads,-⟩ := Option.bind_eq_some_iff.mp reads
    obtain ⟨middle,rfl⟩ := ih tail reads
    exact ⟨'\\' :: char :: middle,rfl⟩
  | case4 => exact ⟨[],rfl⟩
  | case5 => cases reads
  | case6 => cases reads
  | case7 char rest hexed lettered differs writable ih =>
    obtain ⟨tail,reads,-⟩ := Option.map_eq_some_iff.mp reads
    obtain ⟨middle,rfl⟩ := ih tail reads
    exact ⟨char :: middle,rfl⟩

theorem literal_ends (text value : Text) (reads : readLiteral text = some value) : ∃ mark middle,
    text = mark :: middle ++ [mark] ∧ isMark mark = true := by
  cases text with
  | nil => cases reads
  | cons mark rest =>
    by_cases marked : isMark mark = true
    · rw [readLiteral,if_pos marked] at reads
      obtain ⟨middle,rfl⟩ := readBody_ends mark rest value reads
      exact ⟨mark,middle,rfl,marked⟩
    · rw [readLiteral,if_neg marked] at reads
      cases reads

theorem solid_of_isMark (mark : Char) (marked : isMark mark = true) : isSpace mark = false := by
  simp only [isMark,Bool.or_eq_true,decide_eq_true_eq] at marked
  rcases marked with rfl | rfl <;> decide

theorem bracketToken_marked (path : Text) (mark : Char) (rest : Text) (marked : isMark mark = true) :
    bracketToken python path (mark :: rest) =
      match python.literalEval (mark :: rest) with
      | .error raised => .error (.literalError raised)
      | .ok (.text value) => .ok (.key value)
      | .ok .other => .error (invalid python path) := by
  have notStar : mark :: rest ≠ ['*'] := by
    rintro same
    cases same
    cases marked
  rcases read : python.literalEval (mark :: rest) with raised | value | other <;> simp [bracketToken,notStar,marked,read]

theorem nextPart_quoted (path later text value : Text) (reads : readLiteral text = some value) (plain : ']' ∉ text) :
    nextPart python path '[' (text ++ ']' :: later) = .ok (.key value,later) := by
  obtain ⟨mark,middle,rfl,marked⟩ := literal_ends text value reads
  have solid := solid_of_isMark mark marked
  rw [nextPart_bracket python path _ later plain,strip_between mark mark middle solid solid,cons_append,
    bracketToken_marked python path mark _ marked,← cons_append,python.string_literals _ value reads]
  rfl

theorem strip_marked (mark : Char) (rest : Text) (marked : isMark mark = true) : ∃ kept, strip (mark :: rest) = mark :: kept := by
  have solid := solid_of_isMark mark marked
  have start := strip_prefix mark rest solid
  cases stripped : strip (mark :: rest) with
  | nil =>
    unfold strip at stripped
    rw [dropWhile_cons_of_neg (by simp [solid]),rdropWhile_eq_nil_iff] at stripped
    rw [stripped mark mem_cons_self] at solid
    cases solid
  | cons first kept =>
    rw [stripped] at start
    obtain ⟨rfl,-⟩ := cons_prefix_cons.mp start
    exact ⟨kept,rfl⟩

theorem nextPart_cut (path later text value : Text) (reads : readLiteral text = some value) (bracket : ']' ∈ text) :
    ∃ raised, nextPart python path '[' (text ++ ']' :: later) = .error raised := by
  obtain ⟨opened,more,apart,first⟩ := eq_append_cons_of_mem bracket
  obtain ⟨mark,middle,ends,marked⟩ := literal_ends text value reads
  cases opened with
  | nil =>
    rw [apart,cons_append,nil_append] at ends
    cases ends
    cases marked
  | cons head opened =>
    have same : head = mark := by
      rw [apart] at ends
      exact (List.cons.inj ends).1
    subst same
    have solid := solid_of_isMark head marked
    have start : strip (head :: opened) <+: head :: opened := strip_prefix head opened solid
    have within : strip (head :: opened) <+: text := start.trans ⟨']' :: more,apart.symm⟩
    have proper : strip (head :: opened) ≠ text := by
      intro whole
      have short := start.length_le
      rw [whole,apart,length_append] at short
      simp at short
    obtain ⟨raised,fails⟩ := python.unterminated_literals text value _ reads within proper
    obtain ⟨kept,stripped⟩ := strip_marked head opened marked
    have cut : text ++ ']' :: later = head :: opened ++ ']' :: (more ++ ']' :: later) := by
      rw [apart]
      simp
    refine ⟨.literalError raised,?_⟩
    rw [cut,nextPart_bracket python path _ _ first,stripped,
      bracketToken_marked python path head kept marked,← stripped,fails]
    rfl

theorem nextPart_index (path later : Text) (position : Int) : nextPart python path '[' (pythonStr position ++ ']' :: later) =
    if (Nat.toDigits 10 position.natAbs).length ≤ python.digitLimit then .ok (.index position,later)
    else .error (.typeError "JSON array index must be an integer") := by
  have other : ∀ char, char ≠ '-' → char.isDigit = false → char ∉ pythonStr position := by
    intro char notSign notDigit inside
    rcases mem_pythonStr position char inside with sign | digit
    · exact notSign sign
    · rw [notDigit] at digit
      cases digit
  have unmarked : ¬ ((pythonStr position).head?.map isMark).getD false = true := by
    cases spelled : pythonStr position with
    | nil => simp
    | cons first rest =>
      have inside : first ∈ pythonStr position := by simp [spelled]
      intro marked
      simp only [isMark,head?_cons,Option.map_some,Option.getD_some,Bool.or_eq_true,decide_eq_true_eq] at marked
      rcases marked with rfl | rfl
      · exact other '\'' (by decide) (by decide) inside
      · exact other '"' (by decide) (by decide) inside
  have notStar : pythonStr position ≠ ['*'] := fun same => other '*' (by decide) (by decide) (by simp [same])
  rw [nextPart_bracket python path _ later (other ']' (by decide) (by decide)),strip_pythonStr]
  unfold bracketToken integer
  rw [if_neg notStar,if_neg unmarked,int_pythonStr]
  by_cases short : (Nat.toDigits 10 position.natAbs).length ≤ python.digitLimit
  · rw [if_pos short,if_pos short]
    rfl
  · rw [if_neg short,if_neg short]
    rfl

/-! ### The path as a whole -/

theorem nextPart_written (path tail : Text) (written : WrittenPart) (starts : Starts tail) : ∃ char rest,
    written.text ++ tail = char :: rest ∧
      (written.Readable python → nextPart python path char rest = .ok (written.part,tail)) ∧
      (¬ written.Readable python → ∃ raised, nextPart python path char rest = .error raised) := by
  cases written with
  | dotted name allowed => exact ⟨'.',name ++ tail,rfl,fun _ => nextPart_dotted python path name tail allowed starts,fun bad => absurd trivial bad⟩
  | quoted literal =>
    refine ⟨'[',literal.text ++ ']' :: tail,by simp [WrittenPart.text],fun plain => ?_,fun bracket => ?_⟩
    · exact nextPart_quoted python path tail _ _ literal.reads plain
    · exact nextPart_cut python path tail _ _ literal.reads (not_not.mp bracket)
  | index position =>
    refine ⟨'[',pythonStr position ++ ']' :: tail,by simp [WrittenPart.text],fun short => ?_,fun long => ?_⟩
    · exact (nextPart_index python path tail position).trans (if_pos short)
    · exact ⟨_,(nextPart_index python path tail position).trans (if_neg long)⟩
  | dottedWildcard => exact ⟨'.','*' :: tail,rfl,fun _ => nextPart_dottedWildcard python path tail starts,fun bad => absurd trivial bad⟩
  | bracketWildcard =>
    refine ⟨'[',['*'] ++ ']' :: tail,rfl,fun _ => ?_,fun bad => absurd trivial bad⟩
    rw [nextPart_bracket python path ['*'] tail (by decide)]
    rfl

theorem scan_written (path : Text) (written : List WrittenPart) (fuel : Nat) (before : List Part)
    (enough : (written.flatMap WrittenPart.text).length ≤ fuel) :
    scan python path fuel (written.flatMap WrittenPart.text) before = some (.ok (before ++ written.map WrittenPart.part)) ↔
      ∀ part ∈ written, part.Readable python := by
  induction written generalizing fuel before with
  | nil => simp [scan]
  | cons part written ih =>
    obtain ⟨char,rest,spelled,reads,fails⟩ := nextPart_written python path (written.flatMap WrittenPart.text) part (starts_written written)
    rw [flatMap_cons,spelled] at enough ⊢
    cases fuel with
    | zero => exact absurd enough (by simp)
    | succ fuel =>
      by_cases readable : part.Readable python
      · have found := reads readable
        have shorter := nextPart_shorter python path char rest _ _ found
        have later := ih fuel (before ++ [part.part]) (by rw [length_cons] at enough; omega)
        rw [append_assoc,singleton_append] at later
        simp only [scan,found,map_cons,forall_mem_cons,readable,true_and]
        exact later
      · obtain ⟨raised,found⟩ := fails readable
        simp [scan,found,readable]

end reading

/-! ### Extraction -/

theorem select_child (part : Part) (parts : List Part) (value : Json) (specific : part ≠ .wildcard) :
    select (part :: parts) value = (jsonChild part value).toList.flatMap (select parts) := by
  cases part with
  | wildcard => exact absurd rfl specific
  | key name => cases found : jsonChild (.key name) value <;> simp [select,found]
  | index position => cases found : jsonChild (.index position) value <;> simp [select,found]

theorem nextValues_select (values : List Json) (part : Part) (parts : List Part) :
    (nextValues values part).flatMap (select parts) = values.flatMap (select (part :: parts)) := by
  by_cases wild : part = .wildcard
  · subst wild
    simp only [nextValues,flatMap_assoc]
    rfl
  · have narrow : ∀ values, nextValues values part = values.filterMap (jsonChild part) := by
      intro values
      cases part <;> first | rfl | exact absurd rfl wild
    induction values with
    | nil => rw [narrow,filterMap_nil,flatMap_nil,flatMap_nil]
    | cons value values ih =>
      rw [flatMap_cons,select_child part parts value wild,← ih,narrow,narrow,filterMap_cons]
      cases jsonChild part value <;> simp

theorem extractLoop_selects (parts : List Part) (values : List Json) (usedWildcard : Bool) (present : values ≠ []) :
    extractLoop parts values usedWildcard =
      match values.flatMap (select parts) with
      | [] => .null
      | first :: others => if usedWildcard = true ∨ .wildcard ∈ parts then .list (first :: others) else first := by
  induction parts generalizing values usedWildcard with
  | nil =>
    have same : values.flatMap (select []) = values := by simp [select]
    rw [same]
    cases values with
    | nil => exact absurd rfl present
    | cons first others => simp [extractLoop]
  | cons part parts ih =>
    rw [← nextValues_select,extractLoop]
    cases nextValues values part with
    | nil => rfl
    | cons next more =>
      have flag : ((usedWildcard || decide (part = .wildcard)) = true ∨ .wildcard ∈ parts) ↔ (usedWildcard = true ∨ .wildcard ∈ part :: parts) := by
        rw [mem_cons,Bool.or_eq_true,decide_eq_true_eq,or_assoc,@eq_comm _ part]
      dsimp only
      rw [ih (next :: more) _ (cons_ne_nil _ _)]
      simp only [flag]

theorem extractLoop_reference (parts : List Part) (document : Json) : extractLoop parts [document] false = reference parts document := by
  rw [extractLoop_selects parts [document] false (cons_ne_nil _ _),flatMap_singleton]
  cases chosen : select parts document <;> simp [reference,chosen]

theorem extractJson_reference (python : Python) (document : Json) (path : PathArgument) : extractJson python document path =
    (path.parts python).map (fun parts => parts.map (fun parts => reference parts document)) := by
  simp only [extractJson,extractLoop_reference]

theorem meansParts_iff (python : Python) (written : List WrittenPart) :
    MeansParts python written ↔ ∀ part ∈ written, part.Readable python := by
  have scanned := scan_written python (pathText written) written (written.flatMap WrittenPart.text).length [] (Nat.le_refl _)
  rw [nil_append] at scanned
  rw [← scanned]
  constructor
  · exact fun means => means.1
  · intro read
    refine ⟨read,fun document => ?_⟩
    have parsed : (PathArgument.text (pathText written)).parts python = some (.ok (written.map WrittenPart.part)) := read
    rw [extractJson_reference,parsed]
    rfl

/-- One character of a key between quotation marks, without a bracket. -/
def spell (char : Char) : Text := if char = ']' then "\\x5d".toList else writeChar char

theorem readBody_spell (char : Char) (rest : Text) :
    readBody '\'' (spell char ++ rest) = (readBody '\'' rest).map (char :: ·) := by
  unfold spell writeChar
  split_ifs with bracket null newline carriage slash
  · subst bracket
    cases read : readBody '\'' rest <;> simp [readBody,hexChar,hexDigit,read]
  · subst null
    cases read : readBody '\'' rest <;> simp [readBody,hexChar,hexDigit,read]
  · subst newline
    cases read : readBody '\'' rest <;> simp [readBody_escape,escaped,read]
  · subst carriage
    cases read : readBody '\'' rest <;> simp [readBody_escape,escaped,read]
  · rcases slash with rfl | rfl <;> cases read : readBody '\'' rest <;> simp [readBody_escape,escaped,read]
  · obtain ⟨plain,other⟩ := not_or.mp slash
    rw [singleton_append,readBody_cons _ _ _ plain,if_neg other,if_neg (by simp [unwritable,null,newline,carriage,plain])]

theorem spell_plain (char : Char) : ']' ∉ spell char := by
  unfold spell writeChar
  split_ifs with bracket
  · decide
  · decide
  · decide
  · decide
  · simp [Ne.symm bracket]
  · simp [Ne.symm bracket]

/-- Every key can be written so that the path reads it back. -/
theorem every_key_reads_back (python : Python) (key : Text) : ∃ literal : StringLiteral, literal.value = key ∧
    MeansParts python [.quoted literal] := by
  have body : readBody '\'' (key.flatMap spell ++ ['\'']) = some key := by
    induction key with
    | nil => simp [readBody_cons]
    | cons char rest ih => rw [flatMap_cons,append_assoc,readBody_spell,ih,Option.map_some]
  have plain : ']' ∉ '\'' :: (key.flatMap spell ++ ['\'']) := by
    simp [spell_plain]
  have reads : readLiteral ('\'' :: (key.flatMap spell ++ ['\''])) = some key := body
  refine ⟨⟨_,key,reads⟩,rfl,(meansParts_iff python _).mpr (fun part inside => ?_)⟩
  rw [mem_singleton.mp inside]
  exact plain

/-- The scan of `_json_path` ends on every text and `_extract_json` selects what the recursion over the
parts selects. A written path is read back as it is meant exactly when no quoted key has a closing
bracket between its quotation marks and no index is longer than `int` reads. -/
theorem json_paths_mean_what_they_spell (python : Python) :
    (∀ path, ∃ outcome, jsonPath python path = some outcome) ∧
    (∀ document path, extractJson python document path =
      (path.parts python).map (fun parts => parts.map (fun parts => reference parts document))) ∧
    ∀ written, MeansParts python written ↔ ∀ part ∈ written, part.Readable python := by
  refine ⟨?_,?_,?_⟩
  · exact jsonPath_ends python
  · exact extractJson_reference python
  · exact meansParts_iff python

/-! ### A key with a bracket -/

def onceQuoted : Python where
  repr text := String.ofList ('\'' :: text.flatMap writeChar ++ ['\''])
  literalEval text :=
    match readLiteral text with
    | some value => .ok (.text value)
    | none => .error "SyntaxError: unterminated string literal"
  decimal digit := if digit.isDigit then some (digit.toNat - '0'.toNat) else none
  digitLimit := 4300
  string_literals := by
    intro text value reads
    simp only [reads]
  unterminated_literals := by
    intro text value opened reads before proper
    obtain ⟨more,rfl⟩ := before
    have further : more ≠ [] := by
      rintro rfl
      exact proper (append_nil opened).symm
    cases closed : readLiteral opened with
    | none => exact ⟨_,rfl⟩
    | some early =>
      rw [readLiteral_closed opened more early further closed] at reads
      cases reads
  ascii_digits digit known := if_pos known

def bracketKey : List WrittenPart := [.quoted ⟨"'a]b'".toList,"a]b".toList,by decide⟩]

/-- `$['a]b']` does not give back the key `a]b`. -/
theorem bracket_key_is_cut : ¬ MeansParts onceQuoted bracketKey := by
  intro means
  have cut : jsonPath onceQuoted (pathText bracketKey) = some (.error (.literalError "SyntaxError: unterminated string literal")) := by
    decide +kernel
  rw [means.1] at cut
  cases cut

end Klein.Sql.JsonPath
