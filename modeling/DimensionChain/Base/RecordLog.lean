import DimensionChain.Base.Bytes

/-!
# Logs of records

A file of records in which each record is followed by the position where it starts, and an index
file of these positions. A record is found by its number through the index, and the last one
through the last word. The files of the first `n` records are where the files of more can be cut.
-/

namespace DimensionChain.RecordLog

open List Bytes

def layout (start : Nat) : List Bytes → Bytes
  | [] => []
  | r :: rs => r ++ Bytes.ofWord 8 start ++ layout (start + r.length + 8) rs

def next (start : Nat) (rs : List Bytes) : Nat := start + (layout start rs).length

def index (start : Nat) : List Bytes → Bytes
  | [] => []
  | r :: rs => Bytes.ofWord 8 start ++ index (start + r.length + 8) rs

variable {start : Nat} {r : Bytes} {rs ss : List Bytes}

@[simp] lemma next_nil : next start [] = start := rfl

lemma next_cons : next start (r :: rs) = next (start + r.length + 8) rs := by
  unfold next
  rw [layout, length_append, length_append, length_ofWord]
  omega

lemma length_le_layout : rs.length ≤ (layout start rs).length := by
  induction rs generalizing start with
  | nil => exact Nat.le_refl 0
  | cons r rs ih =>
    have hrest : rs.length ≤ (layout (start + r.length + 8) rs).length := ih
    rw [layout, length_append, length_append, length_ofWord, length_cons]
    omega

lemma le_next : start ≤ next start rs := Nat.le_add_right _ _

lemma layout_append : layout start (rs ++ ss) = layout start rs ++ layout (next start rs) ss := by
  induction rs generalizing start with
  | nil => rfl
  | cons r rs ih =>
    rw [cons_append, layout, ih, layout, next_cons]
    simp

lemma next_append : next start (rs ++ ss) = next (next start rs) ss := by
  unfold next
  rw [layout_append, length_append, ← Nat.add_assoc]
  rfl

lemma layout_concat :
    layout start (rs ++ [r]) = layout start rs ++ (r ++ Bytes.ofWord 8 (next start rs)) := by
  rw [layout_append, layout, layout, append_nil]

lemma next_concat : next start (rs ++ [r]) = next start rs + r.length + 8 := by
  rw [next_append, next_cons, next_nil]

lemma index_append : index start (rs ++ ss) = index start rs ++ index (next start rs) ss := by
  induction rs generalizing start with
  | nil => rfl
  | cons r rs ih => rw [cons_append, index, ih, index, next_cons, append_assoc]

lemma index_concat : index start (rs ++ [r]) = index start rs ++ Bytes.ofWord 8 (next start rs) := by
  rw [index_append, index, index, append_nil]

@[simp] lemma length_index : (index start rs).length = 8 * rs.length := by
  induction rs generalizing start with
  | nil => rfl
  | cons r rs ih =>
    rw [index, length_append, length_ofWord, ih, length_cons]
    omega

lemma take_layout (front : Bytes) (hfront : front.length = start) (n : Nat) :
    (front ++ layout start rs).take (next start (rs.take n)) = front ++ layout start (rs.take n) := by
  have hsplit : layout start rs =
      layout start (rs.take n) ++ layout (next start (rs.take n)) (rs.drop n) := by
    rw [← layout_append, take_append_drop]
  have hlen : (front ++ layout start (rs.take n)).length = next start (rs.take n) := by
    rw [length_append, hfront]
    rfl
  rw [hsplit, ← append_assoc, take_left' hlen]

variable {n : Nat}

lemma index_take (h : n ≤ rs.length) : (index start rs).take (8 * n) = index start (rs.take n) := by
  have hsplit : index start rs =
      index start (rs.take n) ++ index (next start (rs.take n)) (rs.drop n) := by
    rw [← index_append, take_append_drop]
  have hlen : (index start (rs.take n)).length = 8 * n := by
    rw [length_index, length_take, Nat.min_eq_left h]
  rw [hsplit, ← hlen, take_left]

variable (h : rs[n]? = some r)
include h

lemma split_at : rs = rs.take n ++ r :: rs.drop (n + 1) := by
  obtain ⟨hn, rfl⟩ := List.getElem?_eq_some_iff.mp h
  rw [← drop_eq_getElem_cons hn, take_append_drop]

lemma layout_split :
    layout start rs = layout start (rs.take n) ++ (r ++ (Bytes.ofWord 8 (next start (rs.take n)) ++
      layout (next start (rs.take n) + r.length + 8) (rs.drop (n + 1)))) := by
  have hsplit := congrArg (layout start) (split_at h)
  rw [layout_append, layout] at hsplit
  rw [hsplit]
  simp

omit h in
lemma drop_layout (front : Bytes) (hfront : front.length = start) (h : rs[n]? = some r) :
    (front ++ layout start rs).drop (next start (rs.take n)) =
      r ++ (Bytes.ofWord 8 (next start (rs.take n)) ++
        layout (next start (rs.take n) + r.length + 8) (rs.drop (n + 1))) := by
  have hlen : (front ++ layout start (rs.take n)).length = next start (rs.take n) := by
    rw [length_append, hfront]
    rfl
  rw [layout_split h, ← append_assoc, drop_left' hlen]

lemma index_split :
    index start rs = index start (rs.take n) ++ (Bytes.ofWord 8 (next start (rs.take n)) ++
      index (next start (rs.take n) + r.length + 8) (rs.drop (n + 1))) := by
  have hsplit := congrArg (index start) (split_at h)
  rw [index_append, index] at hsplit
  exact hsplit

variable (start) in
lemma next_take_lt : next start (rs.take n) + r.length + 8 ≤ next start rs := by
  have hsplit := congrArg (next start) (split_at h)
  rw [next_append, next_cons] at hsplit
  rw [hsplit]
  exact le_next

lemma readWord_index (hsize : next start rs < 2 ^ 64) :
    (index start rs).readWord (8 * n) 8 = some (next start (rs.take n)) := by
  have hn := (List.getElem?_eq_some_iff.mp h).1
  have hlt := next_take_lt start h
  apply readWord_eq _ _ (by omega) (index_split h)
  rw [length_index, length_take]
  omega

omit h

lemma readWord_last (front : Bytes) (hfront : front.length = start)
    (hsize : next start (rs ++ [r]) < 2 ^ 64) :
    (front ++ layout start (rs ++ [r])).readWord (next start (rs ++ [r]) - 8) 8 =
      some (next start rs) := by
  rw [next_concat] at hsize ⊢
  apply readWord_eq (front ++ layout start rs ++ r) [] (by omega)
  · rw [layout_concat]
    simp
  · rw [length_append, length_append, hfront]
    unfold next
    omega

end DimensionChain.RecordLog
