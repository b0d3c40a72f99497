import CopyTrade.Foundation.Serde
import Mathlib.Tactic.IntervalCases
import Std.Data.String.ToNat

/-!
# The text of JSON

A content as compact JSON text and a reader that gives it back.  The writer puts no blanks
between tokens and escapes quotes, backslashes and control characters in texts.  The reader
takes any content for the key of an entry, so it inverts the writer on every content.
-/

namespace CopyTrade.Foundation.JsonFormat

def escapes : List (Char × Char) := [
  ('"', '"'), ('\\', '\\'), ('\n', 'n'), ('\r', 'r'), ('\t', 't'), (Char.ofNat 8, 'b'),
  (Char.ofNat 12, 'f')]

def quoteChar (c : Char) : List Char :=
  match escapes.find? fun entry => entry.1 == c with
  | some entry => ['\\', entry.2]
  | none =>
    if c.toNat < 32 then
      ['\\', 'u', '0', '0', Nat.digitChar (c.toNat / 16), Nat.digitChar (c.toNat % 16)]
    else [c]

def hexValue (c : Char) : Option ℕ := (List.range 16).find? fun n => Nat.digitChar n == c

def unescape (letter : Char) : Option Char :=
  (escapes.find? fun entry => entry.2 == letter).map Prod.fst

def readChar : List Char → Option (Char × List Char)
  | [] => none
  | c :: rest =>
    if c = '\\' then
      match rest with
      | 'u' :: '0' :: '0' :: high :: low :: rest => do
        let high ← hexValue high
        let low ← hexValue low
        some (Char.ofNat (16 * high + low), rest)
      | letter :: rest => (unescape letter).map fun c => (c, rest)
      | [] => none
    else some (c, rest)

theorem readChar_control : ∀ n < 32, ∀ rest,
    readChar ('\\' :: 'u' :: '0' :: '0' :: Nat.digitChar (n / 16) :: Nat.digitChar (n % 16) ::
      rest) = some (Char.ofNat n, rest) := by
  intro n hn rest
  interval_cases n <;> rfl

theorem readChar_quoteChar (c : Char) (rest : List Char) :
    readChar (quoteChar c ++ rest) = some (c, rest) := by
  unfold quoteChar
  split
  · rename_i entry hentry
    have hsame := List.find?_some hentry
    have hmem := List.mem_of_find?_eq_some hentry
    rw [beq_iff_eq] at hsame
    subst hsame
    simp only [escapes, List.mem_cons, List.not_mem_nil, or_false] at hmem
    rcases hmem with rfl | rfl | rfl | rfl | rfl | rfl | rfl <;> rfl
  · rename_i hplain
    split
    · rename_i hcontrol
      have hread := readChar_control c.toNat hcontrol rest
      rw [Char.ofNat_toNat] at hread
      exact hread
    · have hne : c ≠ '\\' := by
        rintro rfl
        exact absurd hplain (by decide)
      show readChar (c :: rest) = some (c, rest)
      rw [readChar.eq_def]
      dsimp only
      rw [if_neg hne]

theorem quoteChar_ne_quote (c : Char) : ∃ first rest, quoteChar c = first :: rest ∧ first ≠ '"' := by
  unfold quoteChar
  split
  · exact ⟨_, _, rfl, by decide⟩
  · rename_i hplain
    split
    · exact ⟨_, _, rfl, by decide⟩
    · refine ⟨c, [], rfl, ?_⟩
      rintro rfl
      exact absurd hplain (by decide)

/-- The characters up to the closing quote, at most `fuel` of them. -/
def readChars : ℕ → List Char → Option (List Char × List Char)
  | 0, _ => none
  | _ + 1, [] => none
  | fuel + 1, c :: rest =>
    if c = '"' then some ([], rest)
    else do
      let (c, rest) ← readChar (c :: rest)
      let (chars, rest) ← readChars fuel rest
      some (c :: chars, rest)

theorem readChars_quoted (chars : List Char) (fuel : ℕ) (h : chars.length < fuel)
    (rest : List Char) :
    readChars fuel (chars.flatMap quoteChar ++ '"' :: rest) = some (chars, rest) := by
  induction chars generalizing fuel with
  | nil =>
    obtain ⟨fuel, rfl⟩ := Nat.exists_eq_succ_of_ne_zero (Nat.ne_of_gt h)
    rfl
  | cons c chars ih =>
    obtain ⟨fuel, rfl⟩ := Nat.exists_eq_succ_of_ne_zero (Nat.ne_of_gt (Nat.zero_lt_of_lt h))
    obtain ⟨start, more, hquote, hne⟩ := quoteChar_ne_quote c
    have hread := readChar_quoteChar c (chars.flatMap quoteChar ++ '"' :: rest)
    rw [hquote] at hread
    rw [List.flatMap_cons, List.append_assoc, hquote, List.cons_append, readChars, if_neg hne,
      ← List.cons_append, hread]
    show (readChars fuel (chars.flatMap quoteChar ++ '"' :: rest) >>= _) = _
    rw [ih fuel (by rw [List.length_cons] at h; omega)]
    rfl

theorem length_lt_quoted (chars rest : List Char) :
    chars.length < (chars.flatMap quoteChar ++ '"' :: rest).length + 1 := by
  induction chars with
  | nil => exact Nat.succ_pos _
  | cons c chars ih =>
    obtain ⟨start, more, hquote, -⟩ := quoteChar_ne_quote c
    rw [List.flatMap_cons, hquote, List.append_assoc, List.cons_append, List.length_cons,
      List.length_cons, List.length_append]
    omega

mutual

def print : Content → List Char
  | .unit => ['n', 'u', 'l', 'l']
  | .bool true => ['t', 'r', 'u', 'e']
  | .bool false => ['f', 'a', 'l', 's', 'e']
  | .int n => (Nat.repr n).toList
  | .text s => '"' :: (s.toList.flatMap quoteChar ++ ['"'])
  | .seq [] => ['[', ']']
  | .seq (content :: rest) => '[' :: (print content ++ printItems rest)
  | .map [] => ['{', '}']
  | .map ((key, value) :: rest) => '{' :: (print key ++ ':' :: (print value ++ printEntries rest))

def printItems : List Content → List Char
  | [] => [']']
  | content :: rest => ',' :: (print content ++ printItems rest)

def printEntries : List (Content × Content) → List Char
  | [] => ['}']
  | (key, value) :: rest => ',' :: (print key ++ ':' :: (print value ++ printEntries rest))

end

/-- What is read with one parser after a comma, up to a closing character. -/
def readMore {α : Type} (close : Char) (read : List Char → Option (α × List Char)) :
    ℕ → List Char → Option (List α × List Char)
  | 0, _ => none
  | _ + 1, [] => none
  | fuel + 1, c :: text =>
    if c = close then some ([], text)
    else if c = ',' then do
      let (a, text) ← read text
      let (items, text) ← readMore close read fuel text
      some (a :: items, text)
    else none

def readList {α : Type} (close : Char) (read : List Char → Option (α × List Char)) (fuel : ℕ)
    (text : List Char) : Option (List α × List Char) :=
  if text.head? = some close then some ([], text.tail)
  else do
    let (a, text) ← read text
    let (items, text) ← readMore close read fuel text
    some (a :: items, text)

def readEntry {α : Type} (read : List Char → Option (α × List Char)) (text : List Char) :
    Option ((α × α) × List Char) := do
  let (key, text) ← read text
  match text with
  | ':' :: text => do
    let (value, text) ← read text
    some ((key, value), text)
  | _ => none

def read : ℕ → List Char → Option (Content × List Char)
  | 0, _ => none
  | fuel + 1, text =>
    match text with
    | 'n' :: 'u' :: 'l' :: 'l' :: text => some (.unit, text)
    | 't' :: 'r' :: 'u' :: 'e' :: text => some (.bool true, text)
    | 'f' :: 'a' :: 'l' :: 's' :: 'e' :: text => some (.bool false, text)
    | '"' :: text =>
      (readChars (text.length + 1) text).map fun found => (.text (String.ofList found.1), found.2)
    | '[' :: text => (readList ']' (read fuel) fuel text).map fun found => (.seq found.1, found.2)
    | '{' :: text =>
      (readList '}' (readEntry (read fuel)) fuel text).map fun found => (.map found.1, found.2)
    | text =>
      (String.ofList (text.takeWhile Char.isDigit)).toNat?.map fun n =>
        (.int n, text.dropWhile Char.isDigit)

def Ends (text : List Char) : Prop := ∀ c, text.head? = some c → c.isDigit = false

theorem ends_cons {c : Char} (h : c.isDigit = false) (text : List Char) : Ends (c :: text) := by
  intro first hfirst
  cases hfirst
  exact h

theorem ends_nil : Ends [] := by
  intro first hfirst
  cases hfirst

theorem dropWhile_digits {digits : List Char} (h : ∀ c ∈ digits, c.isDigit = true)
    {text : List Char} (hends : Ends text) :
    (digits ++ text).takeWhile Char.isDigit = digits ∧
      (digits ++ text).dropWhile Char.isDigit = text := by
  induction digits with
  | nil =>
    cases text with
    | nil => exact ⟨rfl, rfl⟩
    | cons c text =>
      have hdigit := hends c rfl
      rw [List.nil_append, List.takeWhile_cons, List.dropWhile_cons, hdigit]
      exact ⟨rfl, rfl⟩
  | cons c digits ih =>
    have hdigit := h c List.mem_cons_self
    obtain ⟨htake, hdrop⟩ := ih fun d hd => h d (List.mem_cons_of_mem c hd)
    rw [List.cons_append, List.takeWhile_cons, List.dropWhile_cons, hdigit]
    exact ⟨by rw [if_pos rfl, htake], by rw [if_pos rfl, hdrop]⟩

theorem repr_digits (n : ℕ) : ∃ c digits, (Nat.repr n).toList = c :: digits ∧
    ∀ d ∈ c :: digits, d.isDigit = true := by
  have hlist : (Nat.repr n).toList = Nat.toDigits 10 n := by
    rw [Nat.toList_repr]
  cases hdigits : Nat.toDigits 10 n with
  | nil => exact absurd hdigits Nat.toDigits_ne_nil
  | cons c digits =>
    refine ⟨c, digits, by rw [hlist, hdigits], ?_⟩
    intro d hd
    exact Nat.isDigit_of_mem_toDigits (by decide) (by decide) (hdigits ▸ hd)

theorem print_ne_close (content : Content) {close : Char} (h : close = ']' ∨ close = '}')
    (text : List Char) : (print content ++ text).head? ≠ some close := by
  unfold print
  split
  case h_4 n =>
    obtain ⟨c, digits, heq, hdigits⟩ := repr_digits n
    rw [heq]
    intro hclose
    cases hclose
    have hdigit := hdigits _ List.mem_cons_self
    rcases h with rfl | rfl <;> exact absurd hdigit (by decide)
  all_goals
    intro hclose
    cases hclose
    rcases h with h | h <;> exact absurd h (by decide)

theorem readEntry_eq {α : Type} {read : List Char → Option (α × List Char)}
    {text middle rest : List Char} {key value : α} (hkey : read text = some (key, ':' :: middle))
    (hvalue : read middle = some (value, rest)) :
    readEntry read text = some ((key, value), rest) := by
  unfold readEntry
  rw [hkey]
  show (read middle >>= _) = _
  rw [hvalue]
  rfl

theorem print_ne_nil (content : Content) : print content ≠ [] := by
  unfold print
  split
  case h_4 n =>
    obtain ⟨c, digits, heq, -⟩ := repr_digits n
    rw [heq]
    exact List.cons_ne_nil c digits
  all_goals exact List.cons_ne_nil _ _

theorem ends_printItems (items : List Content) (text : List Char) :
    Ends (printItems items ++ text) := by
  cases items with
  | nil => exact ends_cons rfl text
  | cons content items =>
    rw [printItems]
    exact ends_cons rfl _

theorem ends_printEntries (entries : List (Content × Content)) (text : List Char) :
    Ends (printEntries entries ++ text) := by
  cases entries with
  | nil => exact ends_cons rfl text
  | cons entry entries =>
    rw [printEntries]
    exact ends_cons rfl _

theorem read_number (fuel n : ℕ) {text : List Char} (hends : Ends text) :
    read (fuel + 1) ((Nat.repr n).toList ++ text) = some (.int n, text) := by
  obtain ⟨c, digits, heq, hdigits⟩ := repr_digits n
  obtain ⟨htake, hdrop⟩ := dropWhile_digits hdigits hends
  have hdigit := hdigits c List.mem_cons_self
  have hrest : String.ofList (c :: digits) = Nat.repr n := by
    rw [← heq, String.ofList_toList]
  rw [heq, read.eq_def]
  dsimp only
  split
  case h_7 =>
    rw [htake, hdrop, hrest, Nat.toNat?_repr]
    rfl
  all_goals
    rename_i hcase
    rw [List.cons_append, List.cons.injEq] at hcase
    rw [hcase.1] at hdigit
    exact absurd hdigit (by decide)

mutual

theorem read_print (content : Content) (fuel : ℕ) (h : (print content).length ≤ fuel)
    {text : List Char} (hends : Ends text) :
    read fuel (print content ++ text) = some (content, text) := by
  cases fuel with
  | zero =>
    have hnil := List.length_eq_zero_iff.mp (Nat.le_zero.mp h)
    exact absurd hnil (print_ne_nil content)
  | succ fuel =>
    match content with
    | .unit =>
      unfold print
      rfl
    | .bool true =>
      unfold print
      rfl
    | .bool false =>
      unfold print
      rfl
    | .int n =>
      unfold print
      exact read_number fuel n hends
    | .text s =>
      have hchars := readChars_quoted s.toList ((s.toList.flatMap quoteChar ++ '"' :: text).length + 1)
        (length_lt_quoted s.toList text) text
      have happend : print (.text s) ++ text = '"' :: (s.toList.flatMap quoteChar ++ '"' :: text) := by
        rw [print, List.cons_append, List.append_assoc]
        rfl
      rw [happend]
      show (readChars _ _).map _ = _
      rw [hchars]
      show some (Content.text (String.ofList s.toList), text) = _
      rw [String.ofList_toList]
    | .seq [] =>
      unfold print
      rfl
    | .seq (content :: items) =>
      rw [print, List.length_cons, List.length_append] at h
      rw [print, List.cons_append, List.append_assoc]
      show (readList ']' (read fuel) fuel _).map _ = _
      unfold readList
      rw [if_neg (print_ne_close content (.inl rfl) _),
        read_print content fuel (by omega) (ends_printItems items text)]
      show ((readMore ']' (read fuel) fuel (printItems items ++ text) >>= _).map _) = _
      rw [readMore_printItems items fuel (by omega) fuel (by omega)]
      rfl
    | .map [] =>
      unfold print
      rfl
    | .map ((key, value) :: entries) =>
      rw [print, List.length_cons, List.length_append, List.length_cons, List.length_append] at h
      rw [print, List.cons_append, List.append_assoc, List.cons_append, List.append_assoc]
      show (readList '}' (readEntry (read fuel)) fuel _).map _ = _
      have hentry := readEntry_eq
        (read_print key fuel (by omega)
          (ends_cons rfl (print value ++ (printEntries entries ++ text))))
        (read_print value fuel (by omega) (ends_printEntries entries text))
      unfold readList
      rw [if_neg (print_ne_close key (.inr rfl) _), hentry]
      show ((readMore '}' (readEntry (read fuel)) fuel (printEntries entries ++ text) >>= _).map _) = _
      rw [readMore_printEntries entries fuel (by omega) fuel (by omega)]
      rfl

theorem readMore_printItems (items : List Content) (fuel : ℕ)
    (h : (printItems items).length ≤ fuel) (count : ℕ) (hcount : (printItems items).length ≤ count)
    (text : List Char) :
    readMore ']' (read fuel) count (printItems items ++ text) = some (items, text) := by
  match items with
  | [] =>
    obtain ⟨count, rfl⟩ := Nat.exists_eq_succ_of_ne_zero (Nat.ne_of_gt hcount)
    rfl
  | content :: items =>
    rw [printItems, List.length_cons, List.length_append] at h hcount
    obtain ⟨count, rfl⟩ := Nat.exists_eq_succ_of_ne_zero (Nat.ne_of_gt (Nat.zero_lt_of_lt hcount))
    rw [printItems, List.cons_append, List.append_assoc, readMore, if_neg (by decide), if_pos rfl,
      read_print content fuel (by omega) (ends_printItems items text)]
    show (readMore ']' (read fuel) count (printItems items ++ text) >>= _) = _
    rw [readMore_printItems items fuel (by omega) count (by omega)]
    rfl

theorem readMore_printEntries (entries : List (Content × Content)) (fuel : ℕ)
    (h : (printEntries entries).length ≤ fuel) (count : ℕ)
    (hcount : (printEntries entries).length ≤ count) (text : List Char) :
    readMore '}' (readEntry (read fuel)) count (printEntries entries ++ text) =
      some (entries, text) := by
  match entries with
  | [] =>
    obtain ⟨count, rfl⟩ := Nat.exists_eq_succ_of_ne_zero (Nat.ne_of_gt hcount)
    rfl
  | (key, value) :: entries =>
    rw [printEntries, List.length_cons, List.length_append, List.length_cons,
      List.length_append] at h hcount
    obtain ⟨count, rfl⟩ := Nat.exists_eq_succ_of_ne_zero (Nat.ne_of_gt (Nat.zero_lt_of_lt hcount))
    have hentry := readEntry_eq
      (read_print key fuel (by omega)
        (ends_cons rfl (print value ++ (printEntries entries ++ text))))
      (read_print value fuel (by omega) (ends_printEntries entries text))
    rw [printEntries, List.cons_append, List.append_assoc, List.cons_append, List.append_assoc,
      readMore, if_neg (by decide), if_pos rfl, hentry]
    show (readMore '}' (readEntry (read fuel)) count (printEntries entries ++ text) >>= _) = _
    rw [readMore_printEntries entries fuel (by omega) count (by omega)]
    rfl

end

def parse (text : String) : Except String Content :=
  match read text.toList.length text.toList with
  | some (content, []) => .ok content
  | some (content, ['\n']) => .ok content
  | _ => .error "invalid JSON"

def write (content : Content) : String := String.ofList (print content)

theorem parse_write (content : Content) : parse (write content) = .ok content := by
  have hread := read_print content (print content).length le_rfl ends_nil
  rw [List.append_nil] at hread
  unfold parse write
  rw [String.toList_ofList, hread]

theorem parse_write_newline (content : Content) :
    parse (write content ++ "\n") = .ok content := by
  have hlist : (write content ++ "\n").toList = print content ++ ['\n'] := by
    unfold write
    rw [String.toList_append, String.toList_ofList]
    rfl
  have hread := read_print content (print content ++ ['\n']).length
    (by rw [List.length_append]; omega) (ends_cons (c := '\n') rfl [])
  unfold parse
  rw [hlist, hread]
  rfl

end CopyTrade.Foundation.JsonFormat
