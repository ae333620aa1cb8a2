import ShapeBindings.Proofs.Text.Lines
import ShapeBindings.Text.Utf8

/-!
# Texts as they are written

Two texts with the same octets are the same (`encode_injective`), and what is written line by line is read line by line
(`lines_unlines`), or in parts if lines hold line feeds (`lines_unlines_append`).
-/

namespace ShapeBindings.Text

/-! ### Octets -/

theorem toList_loop_eq (bs : ByteArray) (i : Nat) (r : List UInt8) :
    ByteArray.toList.loop bs i r = r.reverse ++ bs.data.toList.drop i := by
  fun_induction ByteArray.toList.loop bs i r with
  | case1 i r hi ih =>
    have hlen : i < bs.data.toList.length := by simpa using hi
    have hget : bs.get! i = bs.data.toList[i] := getElem!_pos bs.data i hi
    rw [ih, List.drop_eq_getElem_cons hlen, hget, List.reverse_cons, List.append_assoc, List.singleton_append]
  | case2 i r hi =>
    have hlen : bs.data.toList.length ≤ i := by simpa using hi
    rw [List.drop_eq_nil_of_le hlen, List.append_nil]

theorem encode_eq_data (s : String) : encode s = s.toByteArray.data.toList := toList_loop_eq s.toByteArray 0 []

theorem encode_injective {s t : String} (h : encode s = encode t) : s = t := by
  rw [encode_eq_data, encode_eq_data] at h
  exact String.toByteArray_inj.1 (ByteArray.ext (Array.toList_inj.1 h))

/-! ### Lines -/

theorem toList_unlines_cons (l : String) (ls : List String) :
    (unlines (l :: ls)).toList = l.toList ++ '\n' :: (unlines ls).toList := by
  rw [unlines, List.map_cons, String.join_cons, String.toList_append, String.toList_append, List.append_assoc]
  rfl

theorem toList_unlines_append (ls ls' : List String) :
    (unlines (ls ++ ls')).toList = (unlines ls).toList ++ (unlines ls').toList := by
  induction ls with
  | nil => rfl
  | cons l ls ih =>
    rw [List.cons_append, toList_unlines_cons, toList_unlines_cons, ih, List.append_assoc, List.cons_append]

theorem ended_unlines (ls : List String) : Ended (unlines ls).toList := by
  induction ls with
  | nil => exact .inl rfl
  | cons l ls ih =>
    rw [toList_unlines_cons]
    rcases ih with h | ⟨w, h⟩
    · exact .inr ⟨l.toList, by rw [h]⟩
    · exact .inr ⟨l.toList ++ '\n' :: w, by rw [h, List.append_assoc, List.cons_append]⟩

/-- What is written line by line can be read in parts, whatever the lines hold. -/
theorem lines_unlines_append (ls ls' : List String) :
    lines (unlines (ls ++ ls')).toList = lines (unlines ls).toList ++ lines (unlines ls').toList := by
  rw [toList_unlines_append, lines_append (ended_unlines ls)]

/-- A line without line feeds is read as it was written, unless it ends with a carriage return. -/
theorem lines_unlines_cons {l : String} (hl : '\n' ∉ l.toList) (hlast : l.toList.getLast? ≠ some '\r')
    (ls : List String) : lines (unlines (l :: ls)).toList = l.toList :: lines (unlines ls).toList := by
  have hchomp : chomp l.toList = l.toList := by
    rw [← List.append_nil l.toList, chomp_append hlast]
    rfl
  rw [toList_unlines_cons, lines_append_newline hl, hchomp]

theorem lines_unlines {ls : List String} (h : ∀ l ∈ ls, '\n' ∉ l.toList ∧ l.toList.getLast? ≠ some '\r') :
    lines (unlines ls).toList = ls.map String.toList := by
  induction ls with
  | nil => rfl
  | cons l ls ih =>
    obtain ⟨hl, hlast⟩ := h l List.mem_cons_self
    rw [lines_unlines_cons hl hlast, ih fun l' hl' => h l' (List.mem_cons_of_mem l hl')]
    rfl

end ShapeBindings.Text
