import Mathlib.Data.List.Cycle
import Mathlib.Data.List.Perm.Basic
import Mathlib.Data.List.Range
import KernelPaging.Proofs.Slots

/-!
The ring as a list. `FrameTable.ring` follows the links once around from the head, and
`FrameTable.Represents` says that all the parts of the table (links, head, hand, vacant stack and
count) tell of one and the same list of slots.
-/

set_option autoImplicit false

namespace KernelPaging

/-- The slots met in at most `turns` moves along the ring, from a position on. -/
def FrameTable.ringFrom (table : FrameTable) : (turns : Nat) → Option Nat → List Nat
  | 0, _ => []
  | _ + 1, none => []
  | turns + 1, some index => index :: table.ringFrom turns (table.advance (some index))

/-- The occupied slots in the order of the ring, the head first. -/
def FrameTable.ring (table : FrameTable) : List Nat :=
  table.ringFrom table.count table.head

def FrameTable.next? (table : FrameTable) (index : Nat) : Option Nat :=
  (table.occupant? index).map Occupant.next

def FrameTable.previous? (table : FrameTable) (index : Nat) : Option Nat :=
  (table.occupant? index).map Occupant.previous

def FrameTable.Adjacent (table : FrameTable) (left right : Nat) : Prop :=
  table.next? left = some right ∧ table.previous? right = some left

/-- All parts of the table agree on the slots of the ring and their order. -/
structure FrameTable.Represents (table : FrameTable) (ring : List Nat) : Prop where
  distinct : ring.Nodup
  occupied : ∀ index, index ∈ ring ↔ (table.occupant? index).isSome
  /-- Next to each other in the list is next to each other by the links, in both directions, and
  the last slot leads back to the first. -/
  linked : Cycle.Chain table.Adjacent (ring : Cycle Nat)
  head : table.head = ring.head?
  hand : ∀ index, table.hand = some index → index ∈ ring
  count : table.count = ring.length
  vacantDistinct : table.vacant.Nodup
  vacated : ∀ index, index ∈ table.vacant ↔
    index < table.slots.size ∧ table.occupant? index = none

theorem FrameTable.represents_empty : FrameTable.Represents {} [] where
  distinct := List.nodup_nil
  occupied := by intro index; simp [FrameTable.occupant?]
  linked := Cycle.Chain.nil _
  head := rfl
  hand := by intro index impossible; cases impossible
  count := rfl
  vacantDistinct := List.nodup_nil
  vacated := by intro index; simp

section Links

variable (table : FrameTable) (index other value : Nat)

theorem FrameTable.next?_setNext :
    (table.setNext index value).next? other =
      if index = other then (table.next? other).map fun _ => value else table.next? other := by
  unfold FrameTable.next? FrameTable.setNext
  rw [FrameTable.occupant?_updateOccupant]
  split
  · rw [Option.map_map, Option.map_map]
    rfl
  · rfl

theorem FrameTable.next?_setPrevious :
    (table.setPrevious index value).next? other = table.next? other := by
  unfold FrameTable.next? FrameTable.setPrevious
  rw [FrameTable.occupant?_updateOccupant]
  split
  · rw [Option.map_map]
    rfl
  · rfl

theorem FrameTable.previous?_setNext :
    (table.setNext index value).previous? other = table.previous? other := by
  unfold FrameTable.previous? FrameTable.setNext
  rw [FrameTable.occupant?_updateOccupant]
  split
  · rw [Option.map_map]
    rfl
  · rfl

theorem FrameTable.previous?_setPrevious :
    (table.setPrevious index value).previous? other =
      if index = other then (table.previous? other).map fun _ => value
      else table.previous? other := by
  unfold FrameTable.previous? FrameTable.setPrevious
  rw [FrameTable.occupant?_updateOccupant]
  split
  · rw [Option.map_map, Option.map_map]
    rfl
  · rfl

theorem FrameTable.isSome_updateOccupant (change : Occupant → Occupant) :
    ((table.updateOccupant index change).occupant? other).isSome =
      (table.occupant? other).isSome := by
  rw [FrameTable.occupant?_updateOccupant]
  split
  · exact Option.isSome_map
  · rfl

end Links

/-! ### The list is determined by the table -/

theorem FrameTable.ringFrom_of_chain (table : FrameTable) (last : Nat) (rest : List Nat) :
    ∀ first, List.IsChain table.Adjacent (first :: (rest ++ [last])) →
      table.ringFrom (rest.length + 1) (some first) = first :: rest := by
  induction rest with
  | nil => intro first chained; rfl
  | cons second rest ih =>
      intro first chained
      rw [List.cons_append, List.isChain_cons_cons] at chained
      have moved : table.advance (some first) = some second := chained.1.1
      rw [List.length_cons, FrameTable.ringFrom, moved, ih second chained.2]

theorem FrameTable.Represents.ring_eq {table : FrameTable} {ring : List Nat}
    (represents : table.Represents ring) : table.ring = ring := by
  unfold FrameTable.ring
  rw [represents.count, represents.head]
  cases ring with
  | nil => rfl
  | cons first rest =>
      have chained := (Cycle.chain_coe_cons _ first rest).mp represents.linked
      exact table.ringFrom_of_chain first rest first chained

def FrameTable.WellFormed (table : FrameTable) : Prop :=
  table.Represents table.ring

theorem FrameTable.Represents.wellFormed {table : FrameTable} {ring : List Nat}
    (represents : table.Represents ring) : table.WellFormed := by
  unfold FrameTable.WellFormed
  rw [represents.ring_eq]
  exact represents

theorem FrameTable.wellFormed_empty : FrameTable.WellFormed {} :=
  FrameTable.represents_empty.wellFormed

theorem FrameTable.Represents.mem_ring_or_vacant {table : FrameTable} {ring : List Nat}
    (represents : table.Represents ring) (index : Nat) :
    index ∈ ring ++ table.vacant ↔ index < table.slots.size := by
  rw [List.mem_append, represents.occupied, represents.vacated]
  constructor
  · rintro (occupied | ⟨within, _⟩)
    · obtain ⟨occupant, found⟩ := Option.isSome_iff_exists.mp occupied
      exact table.lt_size_of_occupant found
    · exact within
  · intro within
    cases found : table.occupant? index with
    | none => exact .inr ⟨within, rfl⟩
    | some occupant => exact .inl rfl

theorem FrameTable.Represents.nodup_ring_vacant {table : FrameTable} {ring : List Nat}
    (represents : table.Represents ring) : (ring ++ table.vacant).Nodup := by
  rw [List.nodup_append]
  refine ⟨represents.distinct, represents.vacantDistinct, ?_⟩
  intro index inRing other inVacant same
  subst same
  have empty := ((represents.vacated index).mp inVacant).2
  have occupied := (represents.occupied index).mp inRing
  rw [empty] at occupied
  cases occupied

theorem FrameTable.Represents.size_eq {table : FrameTable} {ring : List Nat}
    (represents : table.Represents ring) :
    table.slots.size = ring.length + table.vacant.length := by
  have same : (ring ++ table.vacant).Perm (List.range table.slots.size) := by
    rw [List.perm_ext_iff_of_nodup represents.nodup_ring_vacant List.nodup_range]
    intro index
    rw [represents.mem_ring_or_vacant, List.mem_range]
  have lengths := same.length_eq
  rw [List.length_append, List.length_range] at lengths
  exact lengths.symm

theorem FrameTable.Represents.head_eq_none_iff {table : FrameTable} {ring : List Nat}
    (represents : table.Represents ring) : table.head = none ↔ ring = [] := by
  rw [represents.head, List.head?_eq_none_iff]

theorem FrameTable.Represents.mem_of_occupant {table : FrameTable} {ring : List Nat}
    (represents : table.Represents ring) {index : Nat} {occupant : Occupant}
    (found : table.occupant? index = some occupant) : index ∈ ring := by
  rw [represents.occupied, found]
  rfl

theorem FrameTable.Represents.chain {table : FrameTable} {ring : List Nat}
    (represents : table.Represents ring) : List.IsChain table.Adjacent ring := by
  cases ring with
  | nil => exact List.isChain_nil
  | cons first rest =>
      have closed := (Cycle.chain_coe_cons _ first rest).mp represents.linked
      rw [← List.cons_append] at closed
      exact closed.left_of_append

/-- The ring cut open at one of its slots: what remains is linked up, and the slot lies between its
two ends. -/
theorem FrameTable.Represents.around {table : FrameTable} {earlier later : List Nat} {index : Nat}
    (represents : table.Represents (earlier ++ index :: later)) :
    table.Adjacent index ((later ++ earlier).headD index) ∧
      List.IsChain table.Adjacent (later ++ earlier) ∧
        table.Adjacent ((later ++ earlier).getLastD index) index := by
  have turned : (earlier ++ index :: later : List Nat) ~r (index :: (later ++ earlier)) :=
    List.isRotated_append
  have linked := represents.linked
  rw [Cycle.coe_eq_coe.mpr turned, Cycle.chain_coe_cons] at linked
  generalize later ++ earlier = others at linked
  cases others with
  | nil =>
      have alone : table.Adjacent index index := List.isChain_pair.mp linked
      exact ⟨alone, List.isChain_nil, alone⟩
  | cons first rest =>
      rw [List.cons_append, List.isChain_cons_cons, ← List.cons_append, List.isChain_append]
        at linked
      refine ⟨linked.1, linked.2.1, ?_⟩
      rw [List.getLastD_cons]
      have last : (first :: rest).getLast? = some (rest.getLastD first) := by
        rw [List.getLast?_cons, List.getLastD_eq_getLast?]
      exact linked.2.2.2 _ last index rfl

theorem FrameTable.Adjacent.next_eq {table : FrameTable} {left right : Nat} {occupant : Occupant}
    (adjacent : table.Adjacent left right) (found : table.occupant? left = some occupant) :
    occupant.next = right := by
  have next := adjacent.1
  unfold FrameTable.next? at next
  rw [found] at next
  exact Option.some.inj next

theorem FrameTable.Adjacent.previous_eq {table : FrameTable} {left right : Nat}
    {occupant : Occupant} (adjacent : table.Adjacent left right)
    (found : table.occupant? right = some occupant) : occupant.previous = left := by
  have previous := adjacent.2
  unfold FrameTable.previous? at previous
  rw [found] at previous
  exact Option.some.inj previous

theorem FrameTable.Represents.next_mem {table : FrameTable} {ring : List Nat}
    (represents : table.Represents ring) {index : Nat} {occupant : Occupant}
    (found : table.occupant? index = some occupant) : occupant.next ∈ ring := by
  obtain ⟨earlier, later, rfl⟩ := List.append_of_mem (represents.mem_of_occupant found)
  rw [represents.around.1.next_eq found]
  cases others : later ++ earlier with
  | nil => simp
  | cons first rest =>
      have member : first ∈ later ++ earlier := by rw [others]; exact List.mem_cons_self
      rw [List.headD_cons]
      rcases List.mem_append.mp member with inLater | inEarlier
      · exact List.mem_append_right _ (List.mem_cons_of_mem _ inLater)
      · exact List.mem_append_left _ inEarlier

theorem FrameTable.Represents.advance_mem {table : FrameTable} {ring : List Nat}
    (represents : table.Represents ring) {position : Option Nat} {index : Nat}
    (moved : table.advance position = some index) : index ∈ ring := by
  cases position with
  | none =>
      change table.head = some index at moved
      rw [represents.head] at moved
      exact List.mem_of_head? moved
  | some current =>
      obtain ⟨occupant, found, same⟩ := Option.map_eq_some_iff.mp moved
      rw [← same]
      exact represents.next_mem found

end KernelPaging
