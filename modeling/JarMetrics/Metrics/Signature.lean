/-!
# Method signatures

A method's name and descriptor, and sets of signatures as lists in strict order.
`Signature.sortedSet` makes such a list: it has the members of what it is made from
(`mem_sortedSet`), and it is strictly ordered (`pairwise_sortedSet`). Such lists depend on nothing
but their members (`eq_of_pairwise_before`).
-/

namespace JarMetrics

/-- A method's name and descriptor, which together identify it. -/
structure Signature where
  name : String
  descriptor : String
  deriving Repr, DecidableEq, Inhabited, Hashable

namespace Signature

/-- An instance initializer. -/
def isConstructor (s : Signature) : Bool := s.name == "<init>"

/-- A class initializer. -/
def isStaticInitializer (s : Signature) : Bool := s.name == "<clinit>"

/-- Name and descriptor run together. -/
def text (s : Signature) : String := s.name ++ s.descriptor

/-! ## Order -/

/-- Order by name, then by descriptor. -/
def le (s t : Signature) : Bool :=
  if s.name == t.name then s.descriptor ≤ t.descriptor else s.name ≤ t.name

/-- Strictly in front, in the order by name and descriptor. -/
def Before (s t : Signature) : Prop := s.le t = true ∧ s ≠ t

theorem le_iff {s t : Signature} :
    s.le t = true ↔ (s.name = t.name ∧ s.descriptor ≤ t.descriptor) ∨
    (s.name ≠ t.name ∧ s.name ≤ t.name) := by
  unfold le
  by_cases same : s.name = t.name
  · simp [same]
  · simp [same]

theorem le_total (s t : Signature) : (s.le t || t.le s) = true := by
  rw [Bool.or_eq_true, le_iff, le_iff]
  by_cases same : s.name = t.name
  · obtain h | h := String.le_total s.descriptor t.descriptor
    · exact .inl (.inl ⟨same, h⟩)
    · exact .inr (.inl ⟨same.symm, h⟩)
  · obtain h | h := String.le_total s.name t.name
    · exact .inl (.inr ⟨same, h⟩)
    · exact .inr (.inr ⟨fun other => same other.symm, h⟩)

theorem le_antisymm {s t : Signature} (st : s.le t = true) (ts : t.le s = true) : s = t := by
  obtain ⟨name, descriptor⟩ := s
  obtain ⟨name', descriptor'⟩ := t
  obtain ⟨same, h⟩ | ⟨differ, h⟩ := le_iff.mp st
  · cases same
    obtain ⟨-, h'⟩ | ⟨differ, -⟩ := le_iff.mp ts
    · exact congrArg _ (String.le_antisymm h h')
    · exact absurd rfl differ
  · obtain ⟨same, -⟩ | ⟨-, h'⟩ := le_iff.mp ts
    · exact absurd same.symm differ
    · exact absurd (String.le_antisymm h h') differ

theorem le_trans (s t u : Signature) (st : s.le t = true) (tu : t.le u = true) : s.le u = true := by
  rw [le_iff] at st tu ⊢
  obtain ⟨same, h⟩ | ⟨differ, h⟩ := st
  · obtain ⟨same', h'⟩ | ⟨differ', h'⟩ := tu
    · exact .inl ⟨same.trans same', String.le_trans h h'⟩
    · exact .inr ⟨same ▸ differ', same ▸ h'⟩
  · obtain ⟨same', -⟩ | ⟨differ', h'⟩ := tu
    · exact .inr ⟨same' ▸ differ, same' ▸ h⟩
    · refine .inr ⟨fun same => ?_, String.le_trans h h'⟩
      exact differ (String.le_antisymm h (same ▸ h'))

/-! ## Sets as ordered lists -/

/-- Keep the first of equal neighbours. -/
def dropRepeats : List Signature → List Signature
  | s :: t :: rest => if s = t then dropRepeats (t :: rest) else s :: dropRepeats (t :: rest)
  | short => short

/-- The distinct signatures of a list, in order. -/
def sortedSet (signatures : List Signature) : List Signature :=
  dropRepeats (signatures.mergeSort le)

theorem mem_dropRepeats {u : Signature} {signatures : List Signature} :
    u ∈ dropRepeats signatures ↔ u ∈ signatures := by
  fun_induction dropRepeats signatures with
  | case1 t rest ih => simp [ih]
  | case2 s t rest _ ih => rw [List.mem_cons, ih, ← List.mem_cons]
  | case3 short => rfl

/-- Dropping equal neighbours makes an ordered list strictly ordered. -/
theorem pairwise_dropRepeats {signatures : List Signature}
    (ordered : signatures.Pairwise fun s t => s.le t = true) :
    (dropRepeats signatures).Pairwise Before := by
  fun_induction dropRepeats signatures with
  | case1 t rest ih => exact ih ordered.tail
  | case2 s t rest differ ih =>
    obtain ⟨first, later⟩ := List.pairwise_cons.mp ordered
    refine List.pairwise_cons.mpr ⟨fun u member => ?_, ih later⟩
    have after := mem_dropRepeats.mp member
    refine ⟨first u after, fun same => ?_⟩
    -- a second `s` would stand behind `t`, which stands behind `s`
    obtain equal | behind := List.mem_cons.mp after
    · exact differ (same.trans equal)
    · have back := (List.pairwise_cons.mp later).1 u behind
      exact differ (le_antisymm (first t List.mem_cons_self) (same ▸ back))
  | case3 short large =>
    match short with
    | [] => exact .nil
    | [s] => exact List.pairwise_singleton Before s
    | s :: t :: rest => exact absurd rfl (large s t rest)

@[simp] theorem mem_sortedSet {u : Signature} {signatures : List Signature} :
    u ∈ sortedSet signatures ↔ u ∈ signatures :=
  mem_dropRepeats.trans List.mem_mergeSort

theorem pairwise_sortedSet (signatures : List Signature) : (sortedSet signatures).Pairwise Before :=
  pairwise_dropRepeats (List.pairwise_mergeSort le_trans le_total signatures)

/-- No signature stands twice in a strictly ordered list. -/
theorem nodup_of_pairwise_before {signatures : List Signature}
    (ordered : signatures.Pairwise Before) :
    signatures.Nodup :=
  ordered.imp fun before => before.2

/-- Strictly ordered lists with the same members are equal. -/
theorem eq_of_pairwise_before {xs ys : List Signature} (hxs : xs.Pairwise Before)
    (hys : ys.Pairwise Before) (same : ∀ s, s ∈ xs ↔ s ∈ ys) : xs = ys := by
  have perm : xs.Perm ys :=
    (List.perm_ext_iff_of_nodup (nodup_of_pairwise_before hxs) (nodup_of_pairwise_before hys)).mpr
      same
  exact perm.eq_of_pairwise (fun s t _ _ st ts => le_antisymm st.1 ts.1) hxs hys

end Signature

end JarMetrics
