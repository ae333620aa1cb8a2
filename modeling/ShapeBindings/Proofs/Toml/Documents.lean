import ShapeBindings.Proofs.Text.Writing
import ShapeBindings.Proofs.Toml.Quoted
import ShapeBindings.Proofs.Toml.Tables
import ShapeBindings.Toml.Document

/-!
# Documents that programs write

A program that writes a document needs few kinds of lines: `PlainLine` has headers, keys with a text and keys with a truth
value, and `PlainLine.lines_renderLines` says that they are read as what they say.  If the first text of a document is
written by someone else, `says_of_parse?` tells what is left of it, and `parse?_openingText` what is read if that is one
text and nothing more.
-/

namespace ShapeBindings.Toml

variable {α β : Type} {s t r : List Char}

/-! ### Steps of a scan -/

namespace Scan

variable {x : Scan α} {f : α → Scan β} {a : α}

theorem bind_of_eq_some (h : x s = some (a, r)) : (x >>= f) s = f a r := by
  have hbind : (x >>= f) s = (x s).bind fun p => f p.1 p.2 := rfl
  rw [hbind, h, Option.bind_some]

theorem bind_of_eq_none (h : x s = none) : (x >>= f) s = none := by
  have hbind : (x >>= f) s = (x s).bind fun p => f p.1 p.2 := rfl
  rw [hbind, h, Option.bind_none]

theorem bind_pure (x : Scan α) (g : α → β) (s : List Char) :
    (x >>= fun a => pure (g a)) s = (x s).map fun p => (g p.1, p.2) := by
  cases hx : x s with
  | none => exact bind_of_eq_none hx
  | some p => exact bind_of_eq_some hx

theorem exists_of_bind_eq_some {b : β} (h : (x >>= f) s = some (b, r)) :
    ∃ a s', x s = some (a, s') ∧ f a s' = some (b, r) := by
  obtain ⟨⟨a, s'⟩, ha, hf⟩ := Option.bind_eq_some_iff.1 h
  exact ⟨a, s', ha, hf⟩

theorem orElse_of_eq_none {y : Scan α} (h : x s = none) : (x <|> y) s = y s := by
  have horElse : (x <|> y) s = (x s).orElse fun _ => y s := rfl
  rw [horElse, h, Option.orElse_none]

theorem orElse_of_eq_some {y : Scan α} {p : α × List Char} (h : x s = some p) : (x <|> y) s = some p := by
  have horElse : (x <|> y) s = (x s).orElse fun _ => y s := rfl
  rw [horElse, h, Option.orElse_some]

end Scan

theorem blanks_eq (s : List Char) : blanks s = some ((), s.dropWhile isBlank) := rfl

/-! ### Keys -/

/-- A key that needs no quotes. -/
def IsBareKey (key : String) : Prop := key ≠ "" ∧ ∀ c ∈ key.toList, isBareKeyChar c = true

instance (key : String) : Decidable (IsBareKey key) :=
  decidable_of_iff (key ≠ "" ∧ key.toList.all isBareKeyChar = true) (by simp [IsBareKey])

theorem ne_of_isBareKeyChar {c d : Char} (hc : isBareKeyChar c = true) (hd : isBareKeyChar d = false) : c ≠ d := by
  rintro rfl
  rw [hc] at hd
  cases hd

section

variable {key : String}

theorem IsBareKey.exists_cons (h : IsBareKey key) : ∃ c k, key.toList = c :: k ∧ isBareKeyChar c = true := by
  obtain ⟨hne, hall⟩ := h
  cases hkey : key.toList with
  | nil => exact absurd (String.toList_eq_nil_iff.1 hkey) hne
  | cons c k => exact ⟨c, k, rfl, hall c (by simp [hkey])⟩

theorem isBlank_of_isBareKeyChar {c : Char} (h : isBareKeyChar c = true) : isBlank c = false := by
  simp [isBlank, ne_of_isBareKeyChar h (d := ' ') (by decide), ne_of_isBareKeyChar h (d := '\t') (by decide)]

theorem keyPart_bare (h : IsBareKey key) (hs : ∀ c ∈ s.head?, isBareKeyChar c = false) :
    keyPart (key.toList ++ s) = some (key, s) := by
  obtain ⟨c, k, hkey, hc⟩ := h.exists_cons
  have hstop : s.takeWhile isBareKeyChar = [] ∧ s.dropWhile isBareKeyChar = s := by
    cases s with
    | nil => exact ⟨rfl, rfl⟩
    | cons c s => simp [hs c rfl]
  have htake : (key.toList ++ s).takeWhile isBareKeyChar = key.toList := by
    rw [List.takeWhile_append_of_pos h.2, hstop.1, List.append_nil]
  have hdrop : (key.toList ++ s).dropWhile isBareKeyChar = s := by
    rw [List.dropWhile_append_of_pos h.2, hstop.2]
  have hpeek : Scan.peek (key.toList ++ s) = some (some c, key.toList ++ s) := by simp [Scan.peek, hkey]
  rw [keyPart, Scan.bind_of_eq_some hpeek]
  generalize hnext : some c = next
  split
  · cases hnext
    exact absurd rfl (ne_of_isBareKeyChar hc (by decide))
  · cases hnext
    exact absurd rfl (ne_of_isBareKeyChar hc (by decide))
  · have hne : (!key.toList.isEmpty) = true := by simp [hkey]
    rw [Scan.bind_of_eq_some (by rw [Scan.takeWhile, htake, hdrop]), hne]
    exact congrArg some (Prod.ext String.ofList_toList rfl)

theorem blanks_bare (h : IsBareKey key) (s : List Char) : blanks (key.toList ++ s) = some ((), key.toList ++ s) := by
  obtain ⟨c, k, hkey, hc⟩ := h.exists_cons
  rw [blanks_eq, hkey, List.cons_append, List.dropWhile_cons_of_neg (by simp [isBlank_of_isBareKeyChar hc])]

/-- A key of one part. -/
theorem keyParts_bare (h : IsBareKey key) (hs : ∀ c ∈ s.head?, isBareKeyChar c = false)
    (hdot : (s.dropWhile isBlank).head? ≠ some '.') (n : Nat) :
    keyParts (n + 1) (key.toList ++ s) = some ([key], s.dropWhile isBlank) := by
  rw [keyParts, Scan.bind_of_eq_some (blanks_bare h s), Scan.bind_of_eq_some (keyPart_bare h hs),
    Scan.bind_of_eq_some (blanks_eq s), Scan.bind_of_eq_some rfl, if_neg hdot]
  rfl

/-- A part of a key, and the parts behind its dot. -/
theorem keyParts_dot (h : IsBareKey key) {parts : List String} {n : Nat} (hrest : keyParts n s = some (parts, r)) :
    keyParts (n + 1) (key.toList ++ '.' :: s) = some (key :: parts, r) := by
  have hblanks : blanks ('.' :: s) = some ((), '.' :: s) := rfl
  rw [keyParts, Scan.bind_of_eq_some (blanks_bare h _), Scan.bind_of_eq_some (keyPart_bare h (by simp; decide)),
    Scan.bind_of_eq_some hblanks, Scan.bind_of_eq_some rfl, List.head?_cons, if_pos rfl]
  have hdot : Scan.char '.' ('.' :: s) = some ((), s) := rfl
  rw [Scan.bind_of_eq_some hdot, Scan.bind_of_eq_some hrest]
  rfl

/-- A key of several parts as it is written. -/
def keyText (path : List String) (key : String) : List Char :=
  path.flatMap (fun part => part.toList ++ ['.']) ++ key.toList

theorem key_keyText {path : List String} (hpath : ∀ part ∈ path, IsBareKey part) (hlen : path.length < maxDepth)
    (h : IsBareKey key) (hs : ∀ c ∈ s.head?, isBareKeyChar c = false) (hdot : (s.dropWhile isBlank).head? ≠ some '.') :
    Toml.key (keyText path key ++ s) = some ((path, key), s.dropWhile isBlank) := by
  have hparts : ∀ n, path.length < n → keyParts n (keyText path key ++ s) = some (path ++ [key], s.dropWhile isBlank) := by
    clear hlen
    induction path with
    | nil =>
      intro n hn
      obtain ⟨n, rfl⟩ := Nat.exists_eq_add_one_of_ne_zero (Nat.ne_of_gt hn)
      exact keyParts_bare h hs hdot n
    | cons part path ih =>
      intro n hn
      obtain ⟨n, rfl⟩ := Nat.exists_eq_add_one_of_ne_zero (Nat.ne_of_gt (Nat.zero_lt_of_lt hn))
      have hpart := List.forall_mem_cons.1 hpath
      have htext : keyText (part :: path) key ++ s = part.toList ++ '.' :: (keyText path key ++ s) := by simp [keyText]
      rw [htext, keyParts_dot hpart.1 (ih hpart.2 n (Nat.lt_of_succ_lt_succ hn))]
      rfl
  rw [Toml.key, Scan.bind_of_eq_some (hparts maxDepth hlen), List.getLast?_concat, List.dropLast_concat]
  rfl

end

/-! ### Values -/

theorem scalar_quote (s : List Char) :
    scalar ('"' :: s) = (quotedString ('"' :: s)).map fun p => (.string p.1, p.2) := by
  have htext := Scan.bind_pure quotedString Value.string ('"' :: s)
  cases hq : quotedString ('"' :: s) with
  | some p =>
    rw [hq] at htext
    exact Scan.orElse_of_eq_some htext
  | none =>
    rw [hq] at htext
    exact (Scan.orElse_of_eq_none htext).trans rfl

theorem value_succ {c : Char} (hc : c ≠ '[' ∧ c ≠ Char.ofNat 0x7B) (n : Nat) (s : List Char) :
    value (n + 1) (c :: s) = scalar (c :: s) := by
  have harray : array (value n) (c :: s) = none := Scan.bind_of_eq_none (if_neg hc.1)
  have htable : inlineTable (value n) (c :: s) = none := Scan.bind_of_eq_none (if_neg hc.2)
  rw [value, Scan.orElse_of_eq_none harray, Scan.orElse_of_eq_none htable]

theorem value_quote (n : Nat) (s : List Char) :
    value (n + 1) ('"' :: s) = (quotedString ('"' :: s)).map fun p => (.string p.1, p.2) := by
  rw [value_succ (by decide), scalar_quote]

theorem value_boolean (b : Bool) (n : Nat) (s : List Char) :
    value (n + 1) ((toString b).toList ++ s) = some (.boolean b, s) := by
  cases b with
  | true => exact value_succ (by decide) n _
  | false => exact value_succ (by decide) n _

/-! ### Lines -/

/-- A key and what is read behind the equals sign. -/
theorem keyValue_bare {key : String} (h : IsBareKey key) (read : Scan Value) {c : Char} (hc : isBlank c = false)
    (s : List Char) :
    keyValue read (key.toList ++ (" = ".toList ++ c :: s)) =
      (read (c :: s)).map fun p => (⟨[], key, p.1⟩, p.2) := by
  have hbehind : (' ' :: '=' :: ' ' :: c :: s).dropWhile isBlank = '=' :: ' ' :: c :: s := by
    rw [List.dropWhile_cons_of_pos (by decide), List.dropWhile_cons_of_neg (by decide)]
  have hkey : Toml.key (key.toList ++ (" = ".toList ++ c :: s)) = some (([], key), '=' :: ' ' :: c :: s) := by
    have htext : " = ".toList ++ c :: s = ' ' :: '=' :: ' ' :: c :: s := rfl
    rw [htext]
    refine (key_keyText (List.forall_mem_nil IsBareKey) (by decide) h ?_ ?_).trans (by rw [hbehind])
    · simpa using (by decide : isBareKeyChar ' ' = false)
    · simp [hbehind]
  have hequals : Scan.char '=' ('=' :: ' ' :: c :: s) = some ((), ' ' :: c :: s) := rfl
  have hblanks : blanks (' ' :: c :: s) = some ((), c :: s) := by
    rw [blanks_eq, List.dropWhile_cons_of_pos (by decide), List.dropWhile_cons_of_neg (by simp [hc])]
  rw [keyValue, Scan.bind_of_eq_some hkey]
  dsimp only
  rw [Scan.bind_of_eq_some hequals, Scan.bind_of_eq_some hblanks, Scan.bind_pure]

theorem exists_cons_keyText {path : List String} {key : String} (hpath : ∀ part ∈ path, IsBareKey part)
    (h : IsBareKey key) : ∃ c k, keyText path key = c :: k ∧ isBareKeyChar c = true := by
  cases path with
  | nil => exact h.exists_cons
  | cons part path =>
    obtain ⟨c, k, hpart, hc⟩ := (hpath part List.mem_cons_self).exists_cons
    exact ⟨c, _, by rw [keyText, List.flatMap_cons, hpart]; rfl, hc⟩

/-- A header of a table. -/
theorem line_header {path : List String} {key : String} (hpath : ∀ part ∈ path, IsBareKey part)
    (hlen : path.length < maxDepth) (h : IsBareKey key) (s : List Char) :
    line ('[' :: (keyText path key ++ ']' :: s)) = some (.header false path key, s) := by
  have hkey : Toml.key (keyText path key ++ ']' :: s) = some ((path, key), ']' :: s) :=
    key_keyText hpath hlen h (by simp; decide) (by simp [isBlank])
  have hopen : (keyText path key ++ ']' :: s).head? ≠ some '[' := by
    obtain ⟨c, k, htext, hc⟩ := exists_cons_keyText hpath h
    rw [htext]
    exact fun hhead => ne_of_isBareKeyChar hc (by decide) (Option.some.inj hhead)
  have hclose : Scan.char ']' (']' :: s) = some ((), s) := rfl
  have hline : line ('[' :: (keyText path key ++ ']' :: s)) = header (keyText path key ++ ']' :: s) := rfl
  rw [hline, header, Scan.bind_of_eq_some rfl]
  simp only [hopen, decide_false, if_false]
  rw [Scan.bind_of_eq_some hkey]
  dsimp only
  rw [Scan.bind_of_eq_some hclose]
  rfl

theorem line_keyValue {key : String} (h : IsBareKey key) {c : Char} (hc : isBlank c = false) (s : List Char) :
    line (key.toList ++ (" = ".toList ++ c :: s)) =
      (value maxDepth (c :: s)).map fun p => (.keyValue ⟨[], key, p.1⟩, p.2) := by
  have hopen : (key.toList ++ (" = ".toList ++ c :: s)).head? ≠ some '[' := by
    obtain ⟨c, k, hkey, hc⟩ := h.exists_cons
    rw [hkey]
    exact fun hhead => ne_of_isBareKeyChar hc (by decide) (Option.some.inj hhead)
  rw [line, Scan.bind_of_eq_some rfl, if_neg hopen, Scan.bind_pure, keyValue_bare h _ hc, Option.map_map]
  rfl

/-- A character that a line which says something can start with. -/
def StartsLine (c : Char) : Prop := isBlank c = false ∧ c ≠ '#' ∧ c ≠ '\n' ∧ c ≠ '\r'

instance (c : Char) : Decidable (StartsLine c) :=
  inferInstanceAs (Decidable (isBlank c = false ∧ c ≠ '#' ∧ c ≠ '\n' ∧ c ≠ '\r'))

theorem startsLine_of_isBareKeyChar {c : Char} (h : isBareKeyChar c = true) : StartsLine c :=
  ⟨isBlank_of_isBareKeyChar h, ne_of_isBareKeyChar h (by decide), ne_of_isBareKeyChar h (by decide),
    ne_of_isBareKeyChar h (by decide)⟩

section

variable {c : Char} (hc : StartsLine c)
include hc

/-- A line that says something is read before the lines behind it. -/
theorem lines_succ (n : Nat) (s : List Char) :
    lines (n + 1) (c :: s) = (line >>= fun l => lineEnd >>= fun _ => lines n >>= fun ls => pure (l :: ls)) (c :: s) := by
  obtain ⟨hblank, hother⟩ := hc
  have hblanks : blanks (c :: s) = some ((), c :: s) := by
    rw [blanks_eq, List.dropWhile_cons_of_neg (by simp [hblank])]
  have hsaid : (decide (c = '#') || decide (c = '\n') || decide (c = '\r')) = false := by simpa [and_assoc] using hother
  rw [lines, Scan.bind_of_eq_some hblanks, Scan.bind_of_eq_some rfl]
  dsimp only [List.head?_cons]
  rw [hsaid]
  rfl

theorem lines_line {l : Line} (h : line (c :: s) = some (l, '\n' :: r)) (n : Nat) :
    lines (n + 1) (c :: s) = (lines n r).map fun p => (l :: p.1, p.2) := by
  have hend : lineEnd ('\n' :: r) = some ((), r) := rfl
  rw [lines_succ hc, Scan.bind_of_eq_some h, Scan.bind_of_eq_some hend, Scan.bind_pure]

theorem exists_of_lines {ls : List Line} {n : Nat} (h : lines n (c :: s) = some (ls, r)) :
    ∃ l ls' t, line (c :: s) = some (l, t) ∧ ls = l :: ls' := by
  cases n with
  | zero => cases h
  | succ n =>
    rw [lines_succ hc] at h
    obtain ⟨l, t, hl, h⟩ := Scan.exists_of_bind_eq_some h
    obtain ⟨-, t', -, h⟩ := Scan.exists_of_bind_eq_some h
    obtain ⟨ls', t'', -, h⟩ := Scan.exists_of_bind_eq_some h
    cases h
    exact ⟨l, ls', t, hl, rfl⟩

end

section

variable {key : String} (hkey : IsBareKey key) {c : Char} (hc : isBlank c = false)
include hkey hc

theorem lines_keyValue {v : Value} (h : value maxDepth (c :: s) = some (v, '\n' :: r)) (n : Nat) :
    lines (n + 1) (key.toList ++ (" = ".toList ++ c :: s)) =
      (lines n r).map fun p => (.keyValue ⟨[], key, v⟩ :: p.1, p.2) := by
  have hline : line (key.toList ++ (" = ".toList ++ c :: s)) = some (.keyValue ⟨[], key, v⟩, '\n' :: r) := by
    rw [line_keyValue hkey hc, h]
    rfl
  obtain ⟨d, k, htext, hd⟩ := hkey.exists_cons
  rw [htext, List.cons_append] at hline ⊢
  exact lines_line (startsLine_of_isBareKeyChar hd) hline n

/-- The first line of a document is a key, if it starts with one. -/
theorem exists_value_of_lines {ls : List Line} {n : Nat}
    (h : lines n (key.toList ++ (" = ".toList ++ c :: s)) = some (ls, r)) :
    ∃ v t ls', value maxDepth (c :: s) = some (v, t) ∧ ls = .keyValue ⟨[], key, v⟩ :: ls' := by
  obtain ⟨d, k, htext, hd⟩ := hkey.exists_cons
  have hline := line_keyValue hkey hc s
  rw [htext, List.cons_append] at h hline
  obtain ⟨l, ls', t, hl, rfl⟩ := exists_of_lines (startsLine_of_isBareKeyChar hd) h
  rw [hline] at hl
  obtain ⟨⟨v, t'⟩, hv, heq⟩ := Option.map_eq_some_iff.1 hl
  cases heq
  exact ⟨v, _, ls', hv, rfl⟩

end

/-! ### Plain lines -/

/-- A line as a program writes it. -/
inductive PlainLine where
  | empty
  /-- The header of a table. -/
  | header (path : List String) (key : String)
  /-- A key of one part and a text. -/
  | text (key value : String)
  /-- A key of one part and a truth value. -/
  | boolean (key : String) (value : Bool)

namespace PlainLine

/-- The line without its ending. -/
def render : PlainLine → List Char
  | empty => []
  | header path key => '[' :: (keyText path key ++ [']'])
  | text key value => key.toList ++ (" = ".toList ++ '"' :: (value.toList ++ ['"']))
  | boolean key value => key.toList ++ (" = ".toList ++ (toString value).toList)

/-- Keys need no quotes, and texts no escapes. -/
def Sound : PlainLine → Prop
  | empty => True
  | header path key => (∀ part ∈ path, IsBareKey part) ∧ path.length < maxDepth ∧ IsBareKey key
  | text key value => IsBareKey key ∧ IsPlain value.toList
  | boolean key _ => IsBareKey key

instance (l : PlainLine) : Decidable l.Sound :=
  match l with
  | empty => inferInstanceAs (Decidable True)
  | header path key => inferInstanceAs (Decidable ((∀ part ∈ path, IsBareKey part) ∧ path.length < maxDepth ∧ IsBareKey key))
  | text key value => inferInstanceAs (Decidable (IsBareKey key ∧ IsPlain value.toList))
  | boolean key _ => inferInstanceAs (Decidable (IsBareKey key))

/-- What the line says. -/
def said : PlainLine → Option Line
  | empty => none
  | header path key => some (.header false path key)
  | text key value => some (.keyValue ⟨[], key, .string value⟩)
  | boolean key value => some (.keyValue ⟨[], key, .boolean value⟩)

theorem lines_render {l : PlainLine} (h : l.Sound) (n : Nat) (s : List Char) :
    lines (n + 1) (l.render ++ '\n' :: s) = (lines n s).map fun p => (l.said.toList ++ p.1, p.2) := by
  cases l with
  | empty => cases hn : lines n s <;> exact hn
  | header path key =>
    obtain ⟨hpath, hlen, hkey⟩ := h
    rw [render, List.cons_append, List.append_assoc]
    exact lines_line (by decide) (line_header hpath hlen hkey _) n
  | text key value =>
    obtain ⟨hkey, hvalue⟩ := h
    simp only [render, List.append_assoc, List.cons_append, List.nil_append]
    refine lines_keyValue hkey (by decide) ?_ n
    rw [maxDepth, value_quote, quotedString_quote hvalue (by simp), String.ofList_toList]
    rfl
  | boolean key value =>
    have hvalue := value_boolean value 78 ('\n' :: s)
    simp only [render, List.append_assoc]
    cases value with
    | true => exact lines_keyValue h (by decide) hvalue n
    | false => exact lines_keyValue h (by decide) hvalue n

/-- The lines with their endings. -/
def renderLines (ls : List PlainLine) : List Char := ls.flatMap fun l => l.render ++ ['\n']

theorem renderLines_cons (l : PlainLine) (ls : List PlainLine) :
    renderLines (l :: ls) = l.render ++ '\n' :: renderLines ls := by
  simp [renderLines]

theorem length_le_renderLines (ls : List PlainLine) : ls.length ≤ (renderLines ls).length := by
  induction ls with
  | nil => exact Nat.zero_le _
  | cons l ls ih =>
    rw [renderLines_cons, List.length_append, List.length_cons, List.length_cons]
    omega

/-- Plain lines are read as what they say. -/
theorem lines_renderLines {ls : List PlainLine} (h : ∀ l ∈ ls, l.Sound) {n : Nat} (hn : ls.length < n) :
    lines n (renderLines ls) = some (ls.filterMap said, []) := by
  induction ls generalizing n with
  | nil =>
    obtain ⟨n, rfl⟩ := Nat.exists_eq_add_one_of_ne_zero (Nat.ne_of_gt hn)
    rfl
  | cons l ls ih =>
    obtain ⟨n, rfl⟩ := Nat.exists_eq_add_one_of_ne_zero (Nat.ne_of_gt (Nat.zero_lt_of_lt hn))
    obtain ⟨hl, hls⟩ := List.forall_mem_cons.1 h
    rw [renderLines_cons, lines_render hl, ih hls (Nat.lt_of_succ_lt_succ hn)]
    cases hsaid : l.said <;> simp [hsaid]

end PlainLine

/-! ### The first text of a document -/

section

variable {part key text : String}

/-- The start of a document: the header of a table, a key in it, and a quote. -/
def openingText (part key : String) (s : List Char) : List Char :=
  '[' :: (part.toList ++ ']' :: '\n' :: (key.toList ++ (" = ".toList ++ '"' :: s)))

theorem dropMark_openingText (part key : String) (s : List Char) :
    dropMark (openingText part key s) = openingText part key s := by
  rw [openingText, dropMark, if_neg (by decide)]

variable (hpart : IsBareKey part) (hkey : IsBareKey key)
include hpart

theorem lines_openingText (n : Nat) (s : List Char) :
    lines (n + 1) (openingText part key s) =
      (lines n (key.toList ++ (" = ".toList ++ '"' :: s))).map fun p => (.header false [] part :: p.1, p.2) :=
  lines_line (by decide) (line_header (List.forall_mem_nil IsBareKey) (by decide) hpart _) n

include hkey

/-- Whatever follows, a document says the text that is read from its first quote. -/
theorem says_of_parse? {es : Entries} (htext : text.toList = openingText part key s) (h : parse? text = some es) :
    ∃ v r, quotedString ('"' :: s) = some (v, r) ∧ Says [part, key] v es := by
  obtain ⟨⟨ls, r⟩, hlines, hdocument⟩ := Option.bind_eq_some_iff.1 h
  rw [htext, dropMark_openingText, lines_openingText hpart] at hlines
  obtain ⟨⟨ls', r'⟩, hrest, heq⟩ := Option.map_eq_some_iff.1 hlines
  obtain rfl := congrArg Prod.fst heq
  obtain ⟨v, t, ls'', hvalue, rfl⟩ := exists_value_of_lines hkey (by decide) hrest
  rw [maxDepth, value_quote] at hvalue
  obtain ⟨⟨v, t⟩, hquoted, heq⟩ := Option.map_eq_some_iff.1 hvalue
  cases heq
  exact ⟨v, t, hquoted, says_of_documentOf hdocument⟩

/-- A document of a quote and of plain lines has what these say. -/
theorem parse?_openingText {ls : List PlainLine} {v : String}
    (htext : text.toList = openingText part key (s ++ '\n' :: PlainLine.renderLines ls)) (hls : ∀ l ∈ ls, l.Sound)
    (hquoted : quotedString ('"' :: (s ++ '\n' :: PlainLine.renderLines ls)) = some (v, '\n' :: PlainLine.renderLines ls)) :
    parse? text =
      documentOf [] (sections (.header false [] part :: .keyValue ⟨[], key, .string v⟩ :: ls.filterMap PlainLine.said)).2 := by
  obtain ⟨n, hn, hlen⟩ : ∃ n, ls.length < n ∧ text.toList.length = n + 1 := by
    have hlen := PlainLine.length_le_renderLines ls
    refine ⟨text.toList.length - 1, ?_, ?_⟩ <;> simp only [htext, openingText, List.length_cons, List.length_append] <;> omega
  have hvalue : value maxDepth ('"' :: (s ++ '\n' :: PlainLine.renderLines ls)) =
      some (.string v, '\n' :: PlainLine.renderLines ls) := by
    rw [maxDepth, value_quote, hquoted]
    rfl
  have hlines : lines (n + 2) (openingText part key (s ++ '\n' :: PlainLine.renderLines ls)) =
      some (.header false [] part :: .keyValue ⟨[], key, .string v⟩ :: ls.filterMap PlainLine.said, []) := by
    rw [lines_openingText hpart, lines_keyValue hkey (by decide) hvalue, PlainLine.lines_renderLines hls hn]
    rfl
  rw [parse?, htext, dropMark_openingText, ← htext, hlen, htext, hlines]
  rfl

end

end ShapeBindings.Toml
