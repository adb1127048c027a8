import JarMetrics.Proofs.Texts

/-!
# Sequences of bytes that are broken off

Decoding cuts the bytes into pieces from the left: a lead byte takes the bytes that it announces,
and every other byte stands alone. `Cut` says this for any opinion on which bytes may follow a lead
byte. If only continuation bytes may, a broken sequence falls apart into its bytes, and no byte
behind it is lost. The decoder lets any byte follow: it only asks whether there are enough of them.
`decode_cut` says that the pieces of the decoder are those, and that the two ways to cut agree
exactly if no lead byte takes a byte that is no continuation. `lead_takes_letter` is a name in which
a letter gets lost.
-/

namespace JarMetrics.ModifiedUtf8

/-! ## Pieces -/

/-- Bytes that are read as one unit. -/
inductive Piece
  | single (a : UInt8)
  | two (a b : UInt8)
  | three (a b c : UInt8)
  deriving Repr, DecidableEq

namespace Piece

/-- The bytes of a piece. -/
def bytes : Piece → List UInt8
  | .single a => [a]
  | .two a b => [a, b]
  | .three a b c => [a, b, c]

/-- The unit that a piece is read as; a byte that stands alone is the unit of its own value. -/
def unit : Piece → Nat
  | .single a => a.toNat
  | .two a b => unit2 a b
  | .three a b c => unit3 a b c

/-- The bytes that a lead byte takes. -/
def followers (p : Piece) : List UInt8 := p.bytes.tail

/-- The text of pieces. -/
def text (ps : List Piece) : String := String.ofList (Utf16.decode (ps.map unit))

/-- A lead byte with the bytes that it announces, where `follows` says which bytes may follow it. -/
def IsSequence (follows : UInt8 → Prop) : Piece → Prop
  | .single _ => False
  | .two a b => isLead2 a = true ∧ follows b
  | .three a b c => isLead3 a = true ∧ follows b ∧ follows c

end Piece

open Piece (IsSequence)

/-- Bytes cut from the left: where a sequence starts it is one piece, and any other byte is a piece
of its own. -/
inductive Cut (follows : UInt8 → Prop) : List UInt8 → List Piece → Prop
  | nil : Cut follows [] []
  | sequence {p : Piece} {rest : List UInt8} {ps : List Piece} :
      IsSequence follows p → Cut follows rest ps →
      Cut follows (p.bytes ++ rest) (p :: ps)
  | single {a : UInt8} {rest : List UInt8} {ps : List Piece} :
      (∀ p back, IsSequence follows p → a :: rest ≠ p.bytes ++ back) → Cut follows rest ps →
      Cut follows (a :: rest) (.single a :: ps)

/-- Any byte may follow a lead byte. -/
def AnyByte (_ : UInt8) : Prop := True

/-- Only continuation bytes may follow a lead byte. -/
def Continuation (b : UInt8) : Prop := Utf8.isContinuation b = true

/-! ## There is one way to cut -/

section

variable {follows : UInt8 → Prop} {bytes rest : List UInt8} {ps qs : List Piece}

theorem Piece.length_bytes_pos (p : Piece) : 0 < p.bytes.length := by
  cases p <;> exact Nat.zero_lt_succ _

/-- No byte is the lead byte of two bytes and of three. -/
theorem isLead3_of_isLead2 {a : UInt8} (lead : isLead2 a = true) : isLead3 a = false := by
  simp [isLead2_eq, isLead3_eq] at lead ⊢
  omega

/-- The lead byte tells the length of a sequence, so no two sequences start at one place. -/
theorem Piece.IsSequence.unique {p q : Piece} {back : List UInt8} (first : p.IsSequence follows)
    (second : q.IsSequence follows) (same : p.bytes ++ rest = q.bytes ++ back) :
    p = q ∧ rest = back := by
  have differ : ∀ a : UInt8, isLead2 a = true → isLead3 a = true → False := by
    intro a two three
    rw [isLead3_of_isLead2 two] at three
    cases three
  cases p with
  | single a => exact first.elim
  | two a b =>
    cases q with
    | single a' => exact second.elim
    | two a' b' =>
      cases same
      exact ⟨rfl, rfl⟩
    | three a' b' c' =>
      cases same
      exact (differ a first.1 second.1).elim
  | three a b c =>
    cases q with
    | single a' => exact second.elim
    | two a' b' =>
      cases same
      exact (differ a second.1 first.1).elim
    | three a' b' c' =>
      cases same
      exact ⟨rfl, rfl⟩

theorem Cut.of_nil (cut : Cut follows [] ps) : ps = [] := by
  generalize empty : [] = bytes at cut
  cases cut with
  | nil => rfl
  | @sequence p rest ps _ _ =>
    have some := p.length_bytes_pos
    have none := congrArg List.length empty
    rw [List.length_append, List.length_nil] at none
    omega
  | single => cases empty

theorem Cut.of_sequence {p : Piece} (starts : p.IsSequence follows)
    (cut : Cut follows (p.bytes ++ rest) ps) :
    ∃ qs, ps = p :: qs ∧ Cut follows rest qs := by
  generalize whole : p.bytes ++ rest = bytes at cut
  cases cut with
  | nil =>
    have some := p.length_bytes_pos
    have none := congrArg List.length whole
    rw [List.length_append, List.length_nil] at none
    omega
  | sequence other later =>
    obtain ⟨rfl, rfl⟩ := starts.unique other whole
    exact ⟨_, rfl, later⟩
  | single none later => exact absurd whole.symm (none p rest starts)

theorem Cut.of_single {a : UInt8}
    (none : ∀ p back, IsSequence follows p → a :: rest ≠ p.bytes ++ back)
    (cut : Cut follows (a :: rest) ps) : ∃ qs, ps = .single a :: qs ∧ Cut follows rest qs := by
  generalize whole : a :: rest = bytes at cut
  cases cut with
  | nil => cases whole
  | sequence starts later => exact absurd whole (none _ _ starts)
  | single _ later =>
    cases whole
    exact ⟨_, rfl, later⟩

theorem Cut.unique (first : Cut follows bytes ps) (second : Cut follows bytes qs) : ps = qs := by
  induction first generalizing qs with
  | nil => exact second.of_nil.symm
  | sequence starts _ ih =>
    obtain ⟨qs, rfl, later⟩ := second.of_sequence starts
    rw [ih later]
  | single none _ ih =>
    obtain ⟨qs, rfl, later⟩ := second.of_single none
    rw [ih later]

theorem exists_cut (follows : UInt8 → Prop) (bytes : List UInt8) : ∃ ps, Cut follows bytes ps := by
  -- on the number of bytes, of which a piece takes at least one
  induction size : bytes.length using Nat.strongRecOn generalizing bytes with
  | _ size ih =>
    by_cases starts : ∃ p back, IsSequence follows p ∧ bytes = p.bytes ++ back
    · obtain ⟨p, back, sequence, rfl⟩ := starts
      have some := p.length_bytes_pos
      rw [List.length_append] at size
      obtain ⟨ps, later⟩ := ih back.length (by omega) back rfl
      exact ⟨p :: ps, .sequence sequence later⟩
    · cases bytes with
      | nil => exact ⟨[], .nil⟩
      | cons a rest =>
        rw [List.length_cons] at size
        obtain ⟨ps, later⟩ := ih rest.length (by omega) rest rfl
        exact ⟨.single a :: ps,
          .single (fun p back sequence whole => starts ⟨p, back, sequence, whole⟩) later⟩

theorem exists_only_cut (follows : UInt8 → Prop) (bytes : List UInt8) :
    ∃ taken, ∀ ps, Cut follows bytes ps ↔ ps = taken := by
  obtain ⟨taken, cut⟩ := exists_cut follows bytes
  refine ⟨taken, fun ps => ⟨fun other => other.unique cut, ?_⟩⟩
  rintro rfl
  exact cut

/-- Every byte is in one piece, in order. -/
theorem Cut.flatMap_bytes (cut : Cut follows bytes ps) : ps.flatMap Piece.bytes = bytes := by
  induction cut with
  | nil => rfl
  | sequence _ _ ih => rw [List.flatMap_cons, ih]
  | single _ _ ih =>
    rw [List.flatMap_cons, ih]
    rfl

/-! ## The pieces of the decoder -/

/-- Where no sequence starts, the decoder reads one byte. -/
theorem units_go_alone {a : UInt8}
    (none : ∀ p back, IsSequence AnyByte p → a :: rest ≠ p.bytes ++ back) (acc : List Nat) :
    units.go (a :: rest) acc = units.go rest (a.toNat :: acc) := by
  match rest with
  | [] => rfl
  | [b] =>
    have noLead2 : isLead2 a = false := by
      refine Bool.eq_false_iff.mpr fun lead => none (.two a b) [] ⟨lead, trivial⟩ rfl
    simp [units.go, noLead2]
  | b :: c :: rest =>
    have noLead2 : isLead2 a = false := by
      refine Bool.eq_false_iff.mpr fun lead => none (.two a b) (c :: rest) ⟨lead, trivial⟩ rfl
    have noLead3 : isLead3 a = false := by
      refine Bool.eq_false_iff.mpr fun lead => none (.three a b c) rest ⟨lead, trivial, trivial⟩ rfl
    exact units_go_one noLead2 noLead3 (b :: c :: rest) acc

theorem Piece.IsSequence.units_go {p : Piece} (starts : p.IsSequence follows) (rest : List UInt8)
    (acc : List Nat) :
    units.go (p.bytes ++ rest) acc = units.go rest (p.unit :: acc) := by
  cases p with
  | single a => exact starts.elim
  | two a b => exact units_go_two starts.1 rest acc
  | three a b c => exact units_go_three starts.1 rest acc

theorem Cut.units_go (cut : Cut AnyByte bytes ps) (acc : List Nat) :
    units.go bytes acc = (ps.map Piece.unit).reverse ++ acc := by
  induction cut generalizing acc with
  | nil => rfl
  | sequence starts _ ih =>
    rw [starts.units_go, ih, List.map_cons, List.reverse_cons, List.append_assoc,
      List.singleton_append]
  | single none _ ih =>
    rw [units_go_alone none, ih, List.map_cons, List.reverse_cons, List.append_assoc,
      List.singleton_append]
    rfl

theorem Cut.decode_eq (cut : Cut AnyByte bytes ps) : decode bytes = Piece.text ps := by
  rw [decode_eq_unitText, unitText, units, cut.units_go, List.append_nil,
    List.reverse_reverse, Piece.text]

/-! ## Where the two ways to cut agree -/

theorem Piece.IsSequence.anyByte {p : Piece} (starts : p.IsSequence follows) :
    p.IsSequence AnyByte := by
  cases p with
  | single a => exact starts
  | two a b => exact ⟨starts.1, trivial⟩
  | three a b c => exact ⟨starts.1, trivial, trivial⟩

theorem Piece.IsSequence.of_followers {p : Piece} (starts : p.IsSequence AnyByte)
    (followed : ∀ b ∈ p.followers, follows b) : p.IsSequence follows := by
  cases p with
  | single a => exact starts
  | two a b => exact ⟨starts.1, followed b (by simp [followers, bytes])⟩
  | three a b c =>
    exact ⟨starts.1, followed b (by simp [followers, bytes]),
      followed c (by simp [followers, bytes])⟩

theorem Piece.IsSequence.followers {p : Piece} (starts : p.IsSequence follows) :
    ∀ b ∈ p.followers, follows b := by
  cases p with
  | single a => exact starts.elim
  | two a b => simpa [Piece.followers, bytes] using starts.2
  | three a b c => simpa [Piece.followers, bytes] using starts.2

theorem Cut.followers (cut : Cut follows bytes ps) : ∀ p ∈ ps, ∀ b ∈ p.followers, follows b := by
  induction cut with
  | nil => exact fun p member => absurd member List.not_mem_nil
  | sequence starts _ ih => exact List.forall_mem_cons.mpr ⟨starts.followers, ih⟩
  | single _ _ ih =>
    exact List.forall_mem_cons.mpr ⟨fun b member => absurd member List.not_mem_nil, ih⟩

/-- Where lead bytes take only what may follow them, it makes no difference that they would take any
byte. -/
theorem Cut.of_followers (cut : Cut AnyByte bytes ps)
    (followed : ∀ p ∈ ps, ∀ b ∈ p.followers, follows b) :
    Cut follows bytes ps := by
  induction cut with
  | nil => exact .nil
  | sequence starts _ ih =>
    obtain ⟨here, later⟩ := List.forall_mem_cons.mp followed
    exact .sequence (starts.of_followers here) (ih later)
  | single none _ ih =>
    obtain ⟨-, later⟩ := List.forall_mem_cons.mp followed
    exact .single (fun p back starts => none p back starts.anyByte) (ih later)

end

/-- What decoding makes of any bytes: it cuts them so that a lead byte takes as many bytes as it
announces, whichever they are, if there are so many. This is the cut into well-formed sequences and
single bytes exactly if all bytes taken are continuation bytes. Each cut exists, and there is only
one of its kind. -/
theorem decode_cut (bytes : List UInt8) :
    ∃ taken scanned, (∀ ps, Cut AnyByte bytes ps ↔ ps = taken) ∧
      (∀ ps, Cut Continuation bytes ps ↔ ps = scanned) ∧
      taken.flatMap Piece.bytes = bytes ∧ decode bytes = Piece.text taken ∧
      (taken = scanned ↔ ∀ p ∈ taken, ∀ b ∈ p.followers, Utf8.isContinuation b = true) := by
  obtain ⟨taken, loose⟩ := exists_only_cut AnyByte bytes
  obtain ⟨scanned, strict⟩ := exists_only_cut Continuation bytes
  have cut : Cut AnyByte bytes taken := (loose taken).mpr rfl
  refine ⟨taken, scanned, loose, strict, cut.flatMap_bytes, cut.decode_eq, ?_⟩
  rw [← strict taken]
  exact ⟨fun agreed => agreed.followers, fun continued => cut.of_followers continued⟩

/-- A lead byte in front of a letter should be read as itself, and the letter behind it; but the
letter is taken, and what is read is the text of two other bytes. -/
theorem lead_takes_letter :
    Cut Continuation [0xC3, 0x41] [.single 0xC3, .single 0x41] ∧
    Piece.text [.single 0xC3, .single 0x41] = "ÃA" ∧
      decode [0xC3, 0x41] = "Á" ∧ decode [0xC3, 0x81] = "Á" := by
  refine ⟨.single ?_ (.single ?_ .nil), by decide +kernel, by decide +kernel, by decide +kernel⟩
  · intro p back starts whole
    cases p with
    | single a => exact starts
    | two a b =>
      cases whole
      exact absurd (show Utf8.isContinuation 0x41 = true from starts.2) (by decide)
    | three a b c => cases whole
  · intro p back starts whole
    cases p with
    | single a => exact starts
    | two a b => cases whole
    | three a b c => cases whole

end JarMetrics.ModifiedUtf8
