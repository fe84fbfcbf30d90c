import KernelPaging.Proofs.CopiesIn
import KernelPaging.User.Access
import Mathlib.Order.Bounds.Basic

/-!
Copies into user memory, byte for byte. What a copy reports as written stands in memory afterwards,
all else is as it was, and a copy back brings the same bytes.
-/

set_option autoImplicit false

namespace KernelPaging

/-- User memory as single bytes, of which some fault and some cannot be stored to. A store changes
the byte at its address, or nothing if it fails. -/
structure ByteView (memory : Type) [FaultingAccess memory] where
  content : memory → UInt64 → Option UInt8
  storable : memory → UInt64 → Bool
  load_answer (address : UInt64) (user : memory) :
    (FaultingAccess.load address user).1 = content user address
  load_content (address : UInt64) (user : memory) :
    content (FaultingAccess.load address user).2 = content user
  store_answer (address : UInt64) (byte : UInt8) (user : memory) :
    (FaultingAccess.store address byte user).1 = storable user address
  store_content (address : UInt64) (byte : UInt8) (user : memory) (other : UInt64) :
    content (FaultingAccess.store address byte user).2 other =
      if other = address ∧ storable user address then some byte else content user other
  store_storable (address : UInt64) (byte : UInt8) (user : memory) :
    storable (FaultingAccess.store address byte user).2 = storable user

section

variable {memory : Type} [FaultingAccess memory] {view : ByteView memory} {window : UserWindow}
  {user middle after : memory} {place : Nat}

theorem ByteView.loadsFixed (view : ByteView memory) (user : memory) :
    LoadsFixed (view.content user) user := by
  intro earlier address
  induction earlier generalizing user with
  | nil => exact view.load_answer address user
  | cons first rest ih =>
      have later := ih (FaultingAccess.load first user).2
      rw [view.load_content] at later
      exact later

def UserWindow.Writable (window : UserWindow) (view : ByteView memory) (user : memory)
    (place : Nat) : Prop :=
  place < window.top.toNat ∧ view.storable user (UInt64.ofNat place)

/-- The bytes have replaced those from `place` on, and nothing else has changed. -/
structure ByteView.Written (view : ByteView memory) (user after : memory) (place : Nat)
    (bytes : List UInt8) : Prop where
  inside : ∀ (address : UInt64) (index : Nat), address.toNat = place + index →
    index < bytes.length → view.content after address = bytes[index]?
  outside : ∀ address : UInt64, address.toNat < place ∨ place + bytes.length ≤ address.toNat →
    view.content after address = view.content user address
  storable : view.storable after = view.storable user

theorem ByteView.written_nil (same : view.content after = view.content user)
    (storable : view.storable after = view.storable user) :
    view.Written user after place [] := by
  constructor
  · intro address index _ inside
    cases inside
  · intro address _
    rw [same]
  · exact storable

theorem ByteView.Written.append {first second : List UInt8}
    (written : view.Written user middle place first)
    (more : view.Written middle after (place + first.length) second) :
    view.Written user after place (first ++ second) := by
  constructor
  · intro address index found inside
    rw [List.length_append] at inside
    by_cases early : index < first.length
    · rw [more.outside address (.inl (by omega)), written.inside address index found early,
        List.getElem?_append_left early]
    · have later := more.inside address (index - first.length) (by omega) (by omega)
      rw [later, List.getElem?_append_right (Nat.le_of_not_lt early)]
  · intro address apart
    rw [List.length_append] at apart
    rw [more.outside address (by omega), written.outside address (by omega)]
  · rw [more.storable, written.storable]

theorem ByteView.written_store {address : UInt64} (byte : UInt8)
    (storable : view.storable user address) :
    view.Written user (FaultingAccess.store address byte user).2 address.toNat [byte] := by
  constructor
  · intro other index found inside
    have first : index = 0 := Nat.lt_one_iff.mp inside
    have same : other = address := by
      apply UInt64.toNat_inj.mp
      rw [found, first, Nat.add_zero]
    rw [view.store_content, if_pos ⟨same, storable⟩, first]
    rfl
  · intro other apart
    rw [List.length_singleton] at apart
    rw [view.store_content, if_neg]
    rintro ⟨rfl, _⟩
    omega
  · exact view.store_storable address byte user

theorem ByteView.written_failed {address : UInt64} (byte : UInt8) (place : Nat)
    (failed : ¬ view.storable user address) :
    view.Written user (FaultingAccess.store address byte user).2 place [] := by
  apply ByteView.written_nil
  · funext other
    rw [view.store_content, if_neg fun both => failed both.2]
  · exact view.store_storable address byte user

theorem ByteView.poke_below (view : ByteView memory) {address : UInt64}
    (below : address < window.top) (byte : UInt8) (user : memory) :
    window.poke address byte user =
      (if view.storable user address then .ok () else .error address,
        (FaultingAccess.store address byte user).2) := by
  have answer := view.store_answer address byte user
  unfold UserWindow.poke
  rw [if_neg (UInt64.not_le.mpr below), ← answer]
  obtain ⟨done, after⟩ := FaultingAccess.store address byte user
  cases done <;> rfl

theorem UserWindow.pokeAt_writable {start : UInt64} {offset : Nat}
    (writable : window.Writable view user (start.toNat + offset)) (byte : UInt8) :
    ∃ after, window.pokeAt start offset byte user = (.ok (), after) ∧
      view.Written user after (start.toNat + offset) [byte] := by
  obtain ⟨below, storable⟩ := writable
  have fits : start.toNat + offset < wordLimit := Nat.lt_trans below window.top.toNat_lt
  have found : addressAt? start offset = some (UInt64.ofNat (start.toNat + offset)) := if_pos fits
  have place := addressAt?_eq_some found
  unfold UserWindow.pokeAt
  rw [found]
  generalize UInt64.ofNat (start.toNat + offset) = address at *
  rw [← place] at below ⊢
  dsimp only
  rw [view.poke_below (UInt64.lt_iff_toNat_lt.mpr below), if_pos storable]
  exact ⟨_, rfl, ByteView.written_store byte storable⟩

theorem UserWindow.pokeAt_unwritable {start : UInt64} {offset : Nat}
    (unwritable : ¬ window.Writable view user (start.toNat + offset)) (byte : UInt8) :
    ∃ fault after, window.pokeAt start offset byte user = (.error fault, after) ∧
      view.Written user after (start.toNat + offset) [] := by
  unfold UserWindow.pokeAt
  cases found : addressAt? start offset with
  | none => exact ⟨_, user, rfl, ByteView.written_nil rfl rfl⟩
  | some address =>
      have place := addressAt?_eq_some found
      unfold UserWindow.Writable at unwritable
      rw [← place, UInt64.ofNat_toNat] at unwritable
      dsimp only
      by_cases below : address < window.top
      · have failed : ¬ view.storable user address :=
          fun storable => unwritable ⟨UInt64.lt_iff_toNat_lt.mp below, storable⟩
        rw [view.poke_below below, if_neg failed]
        exact ⟨address, _, rfl, ByteView.written_failed byte _ failed⟩
      · refine ⟨address, user, ?_, ByteView.written_nil rfl rfl⟩
        exact if_pos (UInt64.not_lt.mp below)

/-- As many of the bytes were written as places for them are writable in a row. -/
structure UserWindow.CopiedOut (window : UserWindow) (view : ByteView memory) (user : memory)
    (place : Nat) (bytes : List UInt8) (outcome : Nat × memory) : Prop where
  within : outcome.1 ≤ bytes.length
  writable : ∀ offset < outcome.1, window.Writable view user (place + offset)
  stops : outcome.1 < bytes.length → ¬ window.Writable view user (place + outcome.1)
  written : view.Written user outcome.2 place (bytes.take outcome.1)

theorem UserWindow.CopiedOut.stopped (bytes : List UInt8)
    (unwritable : bytes ≠ [] → ¬ window.Writable view user place)
    (written : view.Written user after place []) :
    window.CopiedOut view user place bytes (0, after) := by
  constructor
  · exact Nat.zero_le _
  · intro offset inside
    cases inside
  · intro more
    exact unwritable (List.ne_nil_of_length_pos more)
  · exact written

theorem UserWindow.CopiedOut.cons {byte : UInt8} {rest : List UInt8} {outcome : Nat × memory}
    (first : window.Writable view user place) (written : view.Written user middle place [byte])
    (copied : window.CopiedOut view middle (place + 1) rest outcome) :
    window.CopiedOut view user place (byte :: rest) (outcome.1 + 1, outcome.2) := by
  -- A store leaves it open where else one may store, so the places can be judged beforehand.
  have same : window.Writable view middle = window.Writable view user := by
    unfold UserWindow.Writable
    rw [written.storable]
  obtain ⟨within, writable, stops, more⟩ := copied
  rw [same] at writable stops
  constructor
  · exact Nat.succ_le_succ within
  · intro offset inside
    cases offset with
    | zero => exact first
    | succ offset =>
        have later := writable offset (Nat.lt_of_succ_lt_succ inside)
        rw [Nat.add_right_comm] at later
        exact later
  · intro short
    have later := stops (Nat.lt_of_succ_lt_succ short)
    rw [Nat.add_right_comm] at later
    exact later
  · exact written.append more

theorem UserWindow.copyToAt_copiedOut (window : UserWindow) (view : ByteView memory)
    (start : UInt64) (offset : Nat) (bytes : List UInt8) (user : memory) :
    window.CopiedOut view user (start.toNat + offset) bytes
      (window.copyToAt start offset bytes user) := by
  induction bytes generalizing offset user with
  | nil => exact .stopped [] (fun more => absurd rfl more) (ByteView.written_nil rfl rfl)
  | cons byte rest ih =>
      by_cases writable : window.Writable view user (start.toNat + offset)
      · obtain ⟨after, poked, written⟩ := UserWindow.pokeAt_writable writable byte
        simp only [UserWindow.copyToAt, poked]
        exact .cons writable written (ih (offset + 1) after)
      · obtain ⟨fault, after, poked, written⟩ := UserWindow.pokeAt_unwritable writable byte
        simp only [UserWindow.copyToAt, poked]
        exact .stopped _ (fun _ => writable) written

theorem UserWindow.CopiedOut.visible {bytes : List UInt8} {outcome : Nat × memory}
    (copied : window.CopiedOut view user place bytes outcome) :
    ∀ offset < (bytes.take outcome.1).length,
      window.visible? (view.content outcome.2) (place + offset) =
        (bytes.take outcome.1)[offset]? := by
  intro offset inside
  have early := Nat.lt_of_lt_of_le inside (List.length_take_le outcome.1 bytes)
  have below := (copied.writable offset early).1
  have found : (UInt64.ofNat (place + offset)).toNat = place + offset :=
    UInt64.toNat_ofNat_of_lt' (Nat.lt_trans below window.top.toNat_lt)
  rw [UserWindow.visible?, if_pos below]
  exact copied.written.inside _ offset found inside

theorem UserWindow.copyFrom_of_visible {content : UInt64 → Option UInt8}
    (fixed : LoadsFixed content user) {start : UInt64} {bytes destination : List UInt8}
    (visible : ∀ offset < bytes.length,
      window.visible? content (start.toNat + offset) = bytes[offset]?)
    (same : destination.length = bytes.length) :
    let copy := (window.copyFrom start destination user).1
    copy.copied = bytes.length ∧ copy.destination = bytes := by
  obtain ⟨after, count, _⟩ := window.copyFrom_watched fixed start destination
  have readable := UserWindow.readable_of_visible visible
  rw [same, readable, (window.copyFrom_unwatched user start destination).result] at after count
  rw [← same, List.drop_length, List.append_nil] at after
  exact ⟨count, after⟩

end

def littleEndianBytes : (count value : Nat) → List UInt8
  | 0, _ => []
  | count + 1, value => UInt8.ofNat value :: littleEndianBytes count (value / 256)

theorem littleEndianBytes_length (count value : Nat) :
    (littleEndianBytes count value).length = count := by
  induction count generalizing value with
  | zero => rfl
  | succ count ih => rw [littleEndianBytes, List.length_cons, ih]

theorem littleEndian_bytes {count value : Nat} (fits : value < 1 <<< (8 * count)) :
    littleEndian (littleEndianBytes count value) = value := by
  induction count generalizing value with
  | zero => exact (Nat.lt_one_iff.mp fits).symm
  | succ count ih =>
      rw [Nat.shiftLeft_eq, Nat.one_mul, Nat.mul_succ, Nat.pow_add] at fits
      have rest : value / 256 < 1 <<< (8 * count) := by
        rw [Nat.shiftLeft_eq, Nat.one_mul]
        omega
      rw [littleEndianBytes, littleEndian, ih rest, UInt8.toNat_ofNat']
      omega

def wordBytes (word : UInt64) : List UInt8 :=
  littleEndianBytes 8 word.toNat

/-! ### Mapped memory -/

theorem UserSpace.getElem?_insert (space : UserSpace) (address other : UInt64) (byte : UserByte) :
    (space.bytes.insert address byte)[other]? =
      if other = address then some byte else space.bytes[other]? := by
  rw [Std.HashMap.getElem?_insert]
  by_cases same : other = address
  · rw [if_pos same, if_pos (beq_iff_eq.mpr same.symm)]
  · rw [if_neg same, if_neg fun equal => same (beq_iff_eq.mp equal).symm]

theorem UserSpace.getElem?_store (space : UserSpace) (address other : UInt64) (value : UInt8) :
    (space.store address value).2.bytes[other]? =
      if other = address then
        space.bytes[other]?.map fun old => if old.writable then { old with value } else old
      else
        space.bytes[other]? := by
  unfold UserSpace.store
  by_cases same : other = address
  · rw [if_pos same, same]
    cases found : space.bytes[address]? with
    | none => exact found
    | some old =>
        cases writable : old.writable with
        | false => simp [writable, found]
        | true => simp [writable]
  · rw [if_neg same]
    cases found : space.bytes[address]? with
    | none => rfl
    | some old =>
        cases writable : old.writable with
        | false => simp [writable]
        | true => simp [writable, UserSpace.getElem?_insert, same]

def UserSpace.view : ByteView UserSpace where
  content space address := space.bytes[address]?.map UserByte.value
  storable space address := space.bytes[address]?.any UserByte.writable
  load_answer _ _ := rfl
  load_content _ _ := rfl
  store_answer address byte space := by
    simp only [FaultingAccess.store, UserSpace.store]
    cases space.bytes[address]? with
    | none => rfl
    | some old => cases writable : old.writable <;> simp [writable]
  store_content address byte space other := by
    simp only [FaultingAccess.store, UserSpace.getElem?_store]
    by_cases same : other = address
    · rw [same]
      cases space.bytes[address]? with
      | none => simp
      | some old => cases writable : old.writable <;> simp [writable]
    · simp [same]
  store_storable address byte space := by
    funext other
    simp only [FaultingAccess.store, UserSpace.getElem?_store]
    by_cases same : other = address
    · rw [if_pos same]
      cases space.bytes[other]? with
      | none => rfl
      | some old => cases writable : old.writable <;> simp [writable]
    · rw [if_neg same]

theorem UserSpace.storable_insert (space : UserSpace) (address : UInt64) (byte : UserByte)
    (other : UInt64) :
    UserSpace.view.storable { space with bytes := space.bytes.insert address byte } other =
      if other = address then byte.writable else UserSpace.view.storable space other := by
  simp only [UserSpace.view, UserSpace.getElem?_insert]
  split <;> rfl

theorem UserSpace.storable_map (writable : Bool) (values : List UInt8) :
    ∀ (space : UserSpace) (start address : UInt64), start.toNat + values.length < wordLimit →
      UserSpace.view.storable (space.map start writable values) address =
        if start.toNat ≤ address.toNat ∧ address.toNat < start.toNat + values.length then writable
        else UserSpace.view.storable space address := by
  induction values with
  | nil =>
      intro space start address _
      rw [if_neg (by simp only [List.length_nil]; omega)]
      rfl
  | cons value rest ih =>
      intro space start address fits
      rw [List.length_cons] at fits ⊢
      have next : (start + 1).toNat = start.toNat + 1 := by
        rw [UInt64.toNat_add]
        exact Nat.mod_eq_of_lt (by unfold wordLimit at fits; simp; omega)
      rw [UserSpace.map, ih _ _ _ (by omega), next, UserSpace.storable_insert]
      by_cases same : address = start
      · rw [same, if_neg (by omega), if_pos rfl, if_pos (by omega)]
      · have apart : address.toNat ≠ start.toNat := fun equal => same (UInt64.toNat_inj.mp equal)
        rw [if_neg same]
        by_cases inside : start.toNat + 1 ≤ address.toNat ∧
            address.toNat < start.toNat + 1 + rest.length
        · rw [if_pos inside, if_pos (by omega)]
        · rw [if_neg inside, if_neg (by omega)]

section

variable {memory : Type} [FaultingAccess memory]

/-- A copy writes the longest prefix whose places lie below the boundary and can be stored to. These
bytes and no others have changed afterwards, and a copy back brings them. A word that was written
whole is read back as it was. -/
theorem UserWindow.written_reads_back (view : ByteView memory) (config : Config) (start : UInt64)
    (user : memory) :
    let window := config.window
    (∀ bytes : List UInt8,
      let outcome := window.copyTo start bytes user
      let written := outcome.1
      let after := outcome.2
      IsGreatest {count | count ≤ bytes.length ∧ ∀ offset < count,
          start.toNat + offset < config.userTop.toNat ∧
            view.storable user (UInt64.ofNat (start.toNat + offset))} written ∧
        view.Written user after start.toNat (bytes.take written) ∧
        ∀ destination : List UInt8, destination.length = written →
          let copy := (window.copyFrom start destination after).1
          copy.copied = written ∧ copy.destination = bytes.take written) ∧
      ∀ word : UInt64,
        let outcome := window.copyTo start (wordBytes word) user
        outcome.1 = 8 → (window.readWord start outcome.2).1 = .ok word := by
  intro window
  constructor
  · intro bytes outcome written after
    have copied := window.copyToAt_copiedOut view start 0 bytes user
    have length : (bytes.take written).length = written := List.length_take_of_le copied.within
    refine ⟨isGreatest_of_stops copied.within copied.writable copied.stops, copied.written, ?_⟩
    intro destination same
    rw [← length] at same
    have back := UserWindow.copyFrom_of_visible (view.loadsFixed after) copied.visible same
    exact ⟨back.1.trans length, back.2⟩
  · intro word outcome whole
    have visible := (window.copyToAt_copiedOut view start 0 (wordBytes word) user).visible
    have length : (wordBytes word).length = 8 := littleEndianBytes_length 8 word.toNat
    have all : (wordBytes word).take outcome.1 = wordBytes word :=
      List.take_of_length_le (by omega)
    rw [← UserWindow.copyTo, all, length] at visible
    obtain ⟨read, answer, value⟩ :=
      UserWindow.readWord_ok (view.loadsFixed outcome.2) length visible
    rw [wordBytes, littleEndian_bytes word.toNat_lt] at value
    rw [answer, UInt64.toNat_inj.mp value]

end

def wordSpace : UserSpace :=
  (({} : UserSpace).map 0x400000 true (List.replicate 8 0)).map 0x400008 false [7, 7]

theorem wordSpace_storable {offset : Nat} (near : offset < 9) :
    UserSpace.view.storable wordSpace (UInt64.ofNat (UInt64.toNat 0x400000 + offset)) =
      decide (offset < 8) := by
  have first : UInt64.toNat 0x400000 = 0x400000 := rfl
  have behind : UInt64.toNat 0x400008 = 0x400008 := rfl
  have place : (UInt64.ofNat (0x400000 + offset)).toNat = 0x400000 + offset :=
    UInt64.toNat_ofNat_of_lt' (by unfold UInt64.size; omega)
  have empty : UserSpace.view.storable {} (UInt64.ofNat (0x400000 + offset)) = false := by
    simp [UserSpace.view]
  unfold wordSpace
  rw [UserSpace.storable_map _ _ _ _ _ (by decide), UserSpace.storable_map _ _ _ _ _ (by decide),
    first, behind, place, empty, List.length_replicate]
  by_cases inside : offset < 8
  · rw [if_neg (by omega), if_pos (by omega), decide_eq_true inside]
  · rw [decide_eq_false inside, ite_eq_left_iff.mpr (fun _ => if_neg (by omega))]

/-- Of nine bytes the last is refused, and a word comes back whole. -/
theorem wordSpace_reads_back :
    (({} : Config).window.copyTo 0x400000 (List.replicate 9 5) wordSpace).1 = 8 ∧
      (({} : Config).window.readWord 0x400000
        (({} : Config).window.copyTo 0x400000 (wordBytes 0x1122334455667788) wordSpace).2).1 =
          .ok 0x1122334455667788 := by
  have whole := UserWindow.written_reads_back UserSpace.view {} 0x400000 wordSpace
  have writable : ∀ offset < 8, UInt64.toNat 0x400000 + offset < ({} : Config).userTop.toNat ∧
      UserSpace.view.storable wordSpace (UInt64.ofNat (UInt64.toNat 0x400000 + offset)) := by
    intro offset inside
    constructor
    · exact Nat.lt_trans (Nat.add_lt_add_left inside 0x400000) (by decide)
    · rw [wordSpace_storable (Nat.lt_succ_of_lt inside)]
      exact decide_eq_true inside
  constructor
  · apply (whole.1 (List.replicate 9 5)).1.unique
    apply isGreatest_of_stops (by decide) writable
    rintro _ ⟨_, storable⟩
    rw [wordSpace_storable (Nat.lt_succ_self 8)] at storable
    cases storable
  · apply whole.2
    apply (whole.1 (wordBytes 0x1122334455667788)).1.unique
    apply isGreatest_of_stops (by decide) writable
    intro short
    exact absurd short (Nat.lt_irrefl 8)

end KernelPaging
