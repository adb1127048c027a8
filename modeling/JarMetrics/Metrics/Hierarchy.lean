import JarMetrics.Metrics.ClassRecord
import Std.Data.HashMap

/-!
# The class hierarchy of one archive

Names of superclasses and interfaces are resolved among the classes of the archive; a name that is
not there stands for a class nothing is known about. Of several classes with one name the last
counts.

The depth of a class is the length of its superclass chain up to, and not counting, the root type.
The methods it can override are those of the root type, of the classes on its chain and of all
interfaces reachable from the class or from its chain. Cycles end a chain and are followed only
once.
-/

namespace JarMetrics

/-- The superclass that every class has in the end. -/
def rootType : String := "java/lang/Object"

/-- The methods of the root type that a class can override. -/
def rootMethods : List Signature :=
  [⟨"equals", "(Ljava/lang/Object;)Z"⟩, ⟨"hashCode", "()I"⟩, ⟨"toString", "()Ljava/lang/String;"⟩,
    ⟨"clone", "()Ljava/lang/Object;"⟩, ⟨"finalize", "()V"⟩]

/-- The classes of an archive by name. -/
structure Hierarchy where
  classes : Std.HashMap String ClassRecord

namespace Hierarchy

/-- Index classes by name; a later class replaces an earlier one of the same name. -/
def ofList (records : List ClassRecord) : Hierarchy :=
  ⟨records.foldl (fun classes r => classes.insert r.name r) ∅⟩

/-- Index the classes of a list that may have gaps. -/
def ofSparse (records : List (Option ClassRecord)) : Hierarchy := ofList (records.filterMap id)

/-- The class of a name. -/
def lookup (h : Hierarchy) (name : String) : Option ClassRecord := h.classes[name]?

/-- The number of distinct names. -/
def size (h : Hierarchy) : Nat := h.classes.size

/-! ## Superclasses -/

/-- The classes whose names are not in `seen`. -/
def unseen (h : Hierarchy) (seen : List String) : List (String × ClassRecord) :=
  h.classes.toList.filter fun entry => entry.1 ∉ seen

/-- A name that is met leaves the unseen classes. -/
theorem unseen_cons (h : Hierarchy) (name : String) (seen : List String) :
    h.unseen (name :: seen) = (h.unseen seen).filter fun entry => entry.1 ≠ name := by
  unfold unseen
  rw [List.filter_filter]
  congr 1
  funext entry
  simp

theorem mem_unseen {h : Hierarchy} {name : String} {seen : List String} {r : ClassRecord}
    (fresh : name ∉ seen) (found : h.lookup name = some r) : (name, r) ∈ h.unseen seen := by
  refine List.mem_filter.mpr ⟨Std.HashMap.mem_toList_iff_getElem?_eq_some.mpr found, ?_⟩
  simpa using fresh

theorem length_unseen_cons {h : Hierarchy} {name : String} {seen : List String} {r : ClassRecord}
    (fresh : name ∉ seen) (found : h.lookup name = some r) :
    (h.unseen (name :: seen)).length < (h.unseen seen).length := by
  rw [unseen_cons, List.length_filter_lt_length_iff_exists]
  exact ⟨_, mem_unseen fresh found, by simp⟩

/-- The superclasses of `r`, nearest first, given the names already on the chain. -/
def superChainFrom (h : Hierarchy) (seen : List String) (r : ClassRecord) : List ClassRecord :=
  if stop : r.superName = "" ∨ r.superName = rootType ∨ r.superName ∈ seen then []
  else
    match found : h.lookup r.superName with
    | none => []
    | some next =>
        have := length_unseen_cons (fun member => stop (.inr (.inr member))) found
        next :: h.superChainFrom (r.superName :: seen) next
termination_by (h.unseen seen).length

/-- The superclasses of `r` inside the archive, nearest first. -/
def superChain (h : Hierarchy) (r : ClassRecord) : List ClassRecord :=
  h.superChainFrom [r.name] r

/-- The number of classes on the chain, `r` included. -/
def depth (h : Hierarchy) (r : ClassRecord) : Nat := 1 + (h.superChain r).length

/-! ## Interfaces -/

/-- The number of interface names that the classes of some entries list. -/
def interfaceCount (entries : List (String × ClassRecord)) : Nat :=
  entries.foldr (fun entry count => entry.2.interfaces.length + count) 0

theorem interfaceCount_filter_le (keep : String × ClassRecord → Bool)
    (entries : List (String × ClassRecord)) :
    interfaceCount (entries.filter keep) ≤ interfaceCount entries := by
  induction entries with
  | nil => exact Nat.le_refl 0
  | cons entry rest ih =>
    show _ ≤ entry.2.interfaces.length + interfaceCount rest
    by_cases kept : keep entry = true
    · rw [List.filter_cons_of_pos kept]
      exact Nat.add_le_add_left ih _
    · rw [List.filter_cons_of_neg kept]
      exact Nat.le_trans ih (Nat.le_add_left _ _)

/-- An entry that is filtered out takes its interfaces with it. -/
theorem interfaceCount_filter_add_le {keep : String × ClassRecord → Bool}
    {entries : List (String × ClassRecord)} {entry : String × ClassRecord}
    (member : entry ∈ entries) (dropped : ¬ keep entry = true) :
    entry.2.interfaces.length + interfaceCount (entries.filter keep) ≤ interfaceCount entries := by
  induction entries with
  | nil => nomatch member
  | cons first rest ih =>
    show _ ≤ first.2.interfaces.length + interfaceCount rest
    obtain rfl | later := List.mem_cons.mp member
    · rw [List.filter_cons_of_neg dropped]
      exact Nat.add_le_add_left (interfaceCount_filter_le keep rest) _
    · have restLe := ih later
      by_cases kept : keep first = true
      · rw [List.filter_cons_of_pos kept]
        show _ + (first.2.interfaces.length + interfaceCount _) ≤ _
        omega
      · rw [List.filter_cons_of_neg kept]
        omega

/-- The number of interface names that unseen classes list. -/
def pending (h : Hierarchy) (seen : List String) : Nat := interfaceCount (h.unseen seen)

theorem pending_cons_le (h : Hierarchy) (name : String) (seen : List String) :
    h.pending (name :: seen) ≤ h.pending seen := by
  unfold pending
  rw [unseen_cons]
  exact interfaceCount_filter_le _ _

/-- The interfaces of a class are pending no longer once its name is met. -/
theorem pending_cons_add_le {h : Hierarchy} {name : String} {seen : List String} {r : ClassRecord}
    (fresh : name ∉ seen) (found : h.lookup name = some r) :
    r.interfaces.length + h.pending (name :: seen) ≤ h.pending seen := by
  unfold pending
  rw [unseen_cons]
  exact interfaceCount_filter_add_le (mem_unseen fresh found) (by simp)

/-- How far a walk along interfaces has come. -/
structure Walk where
  /-- The names that were met. -/
  seen : List String := []
  /-- The classes that they stand for, latest first. -/
  found : List ClassRecord := []

/-- Follow the names on a stack and the interfaces of what they resolve to, depth first, each name
once. -/
def follow (h : Hierarchy) (stack : List String) (walk : Walk) : Walk :=
  match stack with
  | [] => walk
  | name :: stack =>
      if met : name ∈ walk.seen then h.follow stack walk
      else
        match found : h.lookup name with
        | none =>
            have := h.pending_cons_le name walk.seen
            h.follow stack { walk with seen := name :: walk.seen }
        | some r =>
            have := pending_cons_add_le met found
            h.follow (r.interfaces ++ stack) { seen := name :: walk.seen, found := r :: walk.found }
termination_by h.pending walk.seen + stack.length
decreasing_by all_goals (simp only [List.length_cons, List.length_append]; omega)

/-- Follow the interfaces of one class after the other, with the names met before. -/
def followAll (h : Hierarchy) (classes : List ClassRecord) (walk : Walk) : Walk :=
  classes.foldl (fun walk c => h.follow c.interfaces walk) walk

/-- The classes that one or more interface names lead to from the given classes. -/
def reachable (h : Hierarchy) (starts : List ClassRecord) : List ClassRecord :=
  (h.followAll starts {}).found

/-! ## Overriding -/

/-- The methods that `r` can override. -/
def inheritable (h : Hierarchy) (r : ClassRecord) : List Signature :=
  let chain := h.superChain r
  Signature.sortedSet <|
    rootMethods
      ++ chain.flatMap (fun c =>
          c.methods.filter fun s => !s.isConstructor && !s.isStaticInitializer)
      ++ (h.reachable (r :: chain)).flatMap
        (fun i => i.methods.filter fun s => !s.isStaticInitializer)

/-- The number of methods that `r` overrides. Interfaces override nothing. -/
def overridden (h : Hierarchy) (r : ClassRecord) : Nat :=
  if r.isInterface then 0
  else
    let inherited := h.inheritable r
    (r.methods.filter fun s =>
      !s.isConstructor && !s.isStaticInitializer && inherited.contains s).length

end Hierarchy

end JarMetrics
