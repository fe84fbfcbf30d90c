import KernelPaging.Proofs.PageChecks
import KernelPaging.Proofs.Streams
import KernelPaging.Proofs.UserAccesses
import Mathlib.Order.Bounds.Defs

/-!
Copies out of user memory, byte for byte. A copy brings the bytes up to the first that is not
visible, leaves the rest of its destination alone, and loads that one byte more if it lies below the
boundary. The last address of all never does, so no sum for an address is too large.
-/

set_option autoImplicit false

namespace KernelPaging

theorem isGreatest_of_stops {holds : Nat → Prop} {length count : Nat} (within : count ≤ length)
    (all : ∀ offset < count, holds offset) (stops : count < length → ¬ holds count) :
    IsGreatest {other | other ≤ length ∧ ∀ offset < other, holds offset} count := by
  constructor
  · exact ⟨within, all⟩
  · rintro other ⟨otherWithin, otherAll⟩
    apply Nat.le_of_not_lt
    intro longer
    exact stops (Nat.lt_of_lt_of_le longer otherWithin) (otherAll count longer)

theorem getElem?_overwritten (bytes old : List UInt8) (index : Nat) :
    (bytes ++ old.drop bytes.length)[index]? =
      if index < bytes.length then bytes[index]? else old[index]? := by
  by_cases inside : index < bytes.length
  · rw [if_pos inside, List.getElem?_append_left inside]
  · have behind := Nat.le_of_not_lt inside
    rw [if_neg inside, List.getElem?_append_right behind, List.getElem?_drop,
      Nat.add_sub_cancel' behind]

section

variable (window : UserWindow) (content : UInt64 → Option UInt8)

/-- The load that a probe of a place makes. Behind the boundary it makes none. -/
def UserWindow.asked (place : Nat) : List Access :=
  if place < window.top.toNat then
    [.load (UInt64.ofNat place) (window.visible? content place)]
  else
    []

/-- A load of each of `count` places, and a probe of the place behind them if the range goes on. -/
def UserWindow.loads (place count length : Nat) : List Access :=
  (List.range' place count).map
      (fun other => Access.load (UInt64.ofNat other) (window.visible? content other)) ++
    if count < length then window.asked content (place + count) else []

variable {window content}

theorem UserWindow.visible_below {place : Nat} {byte : UInt8}
    (visible : window.visible? content place = some byte) : place < window.top.toNat := by
  unfold UserWindow.visible? at visible
  split at visible
  · assumption
  · cases visible

theorem UserWindow.fits_below (window : UserWindow) {start offset : Nat}
    (below : start + offset < window.top.toNat) : start + (offset + 1) < wordLimit := by
  have bounded := window.top.toNat_lt
  unfold wordLimit
  omega

theorem UserWindow.asked_of_visible {place : Nat} {byte : UInt8}
    (visible : window.visible? content place = some byte) :
    window.asked content place = [.load (UInt64.ofNat place) (some byte)] := by
  rw [UserWindow.asked, if_pos (UserWindow.visible_below visible), visible]

theorem UserWindow.loads_zero (place length : Nat) :
    window.loads content place 0 (length + 1) = window.asked content place := by
  simp [UserWindow.loads]

theorem UserWindow.loads_succ {place : Nat} {byte : UInt8}
    (visible : window.visible? content place = some byte) (count length : Nat) :
    window.loads content place (count + 1) (length + 1) =
      window.asked content place ++ window.loads content (place + 1) count length := by
  rw [UserWindow.asked_of_visible visible]
  simp [UserWindow.loads, List.range'_succ, visible, Nat.add_right_comm place 1 count,
    Nat.add_assoc]

theorem UserWindow.loads_length {place count length : Nat} :
    (window.loads content place count length).length =
      count + if count < length ∧ place + count < window.top.toNat then 1 else 0 := by
  unfold UserWindow.loads UserWindow.asked
  by_cases more : count < length
  · by_cases below : place + count < window.top.toNat
    · simp [more, below]
    · simp [more, below]
  · simp [more]

theorem UserWindow.readable_getElem? {place length offset : Nat}
    (inside : offset < (window.readable content place length).length) :
    (window.readable content place length)[offset]? =
      window.visible? content (place + offset) := by
  induction length generalizing place offset with
  | zero => cases inside
  | succ length ih =>
      rw [UserWindow.readable] at inside ⊢
      cases visible : window.visible? content place with
      | none =>
          rw [visible] at inside
          cases inside
      | some byte =>
          rw [visible] at inside
          cases offset with
          | zero => exact visible.symm
          | succ offset =>
              rw [List.getElem?_cons_succ, ih (Nat.lt_of_succ_lt_succ inside),
                Nat.add_right_comm, Nat.add_assoc]

theorem UserWindow.visible_readable_length {place length : Nat}
    (short : (window.readable content place length).length < length) :
    window.visible? content (place + (window.readable content place length).length) = none := by
  induction length generalizing place with
  | zero => cases short
  | succ length ih =>
      rw [UserWindow.readable] at short ⊢
      cases visible : window.visible? content place with
      | none => exact visible
      | some byte =>
          rw [visible] at short
          have behind := ih (Nat.lt_of_succ_lt_succ short)
          rw [Nat.add_right_comm, Nat.add_assoc] at behind
          exact behind

theorem UserWindow.visible_of_readable {place length offset : Nat}
    (inside : offset < (window.readable content place length).length) :
    (window.visible? content (place + offset)).isSome := by
  rw [← UserWindow.readable_getElem? inside, List.getElem?_eq_getElem inside]
  rfl

theorem UserWindow.readable_isGreatest (window : UserWindow) (content : UInt64 → Option UInt8)
    (place length : Nat) :
    IsGreatest {count | count ≤ length ∧
      ∀ offset < count, (window.visible? content (place + offset)).isSome}
      (window.readable content place length).length := by
  apply isGreatest_of_stops (window.readable_length_le content place length)
  · intro offset inside
    exact UserWindow.visible_of_readable inside
  · intro short visible
    rw [UserWindow.visible_readable_length short] at visible
    cases visible

theorem UserWindow.readable_of_visible {place : Nat} {bytes : List UInt8}
    (visible : ∀ offset < bytes.length, window.visible? content (place + offset) = bytes[offset]?) :
    window.readable content place bytes.length = bytes := by
  have greatest := window.readable_isGreatest content place bytes.length
  have whole : (window.readable content place bytes.length).length = bytes.length := by
    apply Nat.le_antisymm greatest.1.1
    apply greatest.2
    refine ⟨Nat.le_refl _, fun offset inside => ?_⟩
    rw [visible offset inside, List.getElem?_eq_getElem inside]
    rfl
  apply List.ext_getElem?
  intro offset
  by_cases inside : offset < bytes.length
  · rw [UserWindow.readable_getElem? (by rw [whole]; exact inside), visible offset inside]
  · have behind := Nat.le_of_not_lt inside
    rw [List.getElem?_eq_none (by rw [whole]; exact behind), List.getElem?_eq_none behind]

theorem UserWindow.readable_length_of_isLeast {place length offset : Nat}
    (first : IsLeast {other | other < length ∧ window.visible? content (place + other) = none}
      offset) : (window.readable content place length).length = offset := by
  obtain ⟨⟨within, hidden⟩, least⟩ := first
  have atMost : (window.readable content place length).length ≤ offset := by
    apply Nat.le_of_not_lt
    intro inside
    have visible := UserWindow.visible_of_readable inside
    rw [hidden] at visible
    cases visible
  apply Nat.le_antisymm atMost
  have short : (window.readable content place length).length < length := by omega
  exact least ⟨short, UserWindow.visible_readable_length short⟩

theorem UserWindow.readable_fits (window : UserWindow) (content : UInt64 → Option UInt8)
    {place : Nat} (fits : place < wordLimit) (length : Nat) :
    place + (window.readable content place length).length < wordLimit := by
  by_cases empty : (window.readable content place length).length = 0
  · omega
  · obtain ⟨byte, visible⟩ := Option.isSome_iff_exists.mp
      (UserWindow.visible_of_readable (Nat.sub_one_lt empty))
    have below := UserWindow.visible_below visible
    have bounded := window.top.toNat_lt
    unfold wordLimit
    omega

end

/-! ### Copies that are watched -/

section

variable {memory : Type} [FaultingAccess memory]

/-- Memory whose loads are fixed has been watched doing what steady memory would do. -/
structure WatchedAlike (watched : Watched memory) (steady : Watched Steady) : Prop where
  fixed : LoadsFixed steady.user.content watched.user
  accesses : watched.accesses = steady.accesses

theorem WatchedAlike.loads : LoadsAgree (@WatchedAlike memory _) := by
  intro address watched steady alike
  have agree := loadsFixed_agree address watched.user steady.user alike.fixed
  have answers := agree.result
  constructor
  · exact answers
  · constructor
    · exact agree.related
    · simp only [FaultingAccess.load] at answers ⊢
      rw [alike.accesses, answers]

end

section

variable (window : UserWindow) (content : UInt64 → Option UInt8)

theorem UserWindow.probe_watched (address : UInt64) (before : List Access) :
    window.probe address (Watched.mk (Steady.mk content) before) =
      ((window.visible? content address.toNat).elim (.error address) .ok,
        ⟨⟨content⟩, before ++ window.asked content address.toNat⟩) := by
  unfold UserWindow.probe UserWindow.asked UserWindow.visible?
  by_cases below : address < window.top
  · have inside : address.toNat < window.top.toNat := UInt64.lt_iff_toNat_lt.mp below
    rw [if_neg (UInt64.not_le.mpr below), if_pos inside, if_pos inside, UInt64.ofNat_toNat]
    simp only [FaultingAccess.load]
    cases content address <;> rfl
  · have outside : ¬ address.toNat < window.top.toNat :=
      fun less => below (UInt64.lt_iff_toNat_lt.mpr less)
    rw [if_pos (UInt64.not_lt.mp below), if_neg outside, if_neg outside, List.append_nil]
    rfl

theorem UserWindow.probeAt_watched {start : UInt64} {offset : Nat}
    (fits : start.toNat + offset < wordLimit) (before : List Access) :
    window.probeAt start offset (Watched.mk (Steady.mk content) before) =
      ((window.visible? content (start.toNat + offset)).elim
        (.error (UInt64.ofNat (start.toNat + offset))) .ok,
        ⟨⟨content⟩, before ++ window.asked content (start.toNat + offset)⟩) := by
  have found : addressAt? start offset = some (UInt64.ofNat (start.toNat + offset)) := if_pos fits
  have place := addressAt?_eq_some found
  unfold UserWindow.probeAt
  rw [found]
  simp only [window.probe_watched, place]

theorem UserWindow.copyFromAt_watched (start : UInt64) (destination : List UInt8) :
    ∀ (offset : Nat) (before : List Access), start.toNat + offset < wordLimit →
      let place := start.toNat + offset
      let bytes := window.readable content place destination.length
      window.copyFromAt start offset destination (Watched.mk (Steady.mk content) before) =
        (⟨bytes ++ destination.drop bytes.length, bytes.length,
          if bytes.length < destination.length then some (UInt64.ofNat (place + bytes.length))
          else none⟩,
          ⟨⟨content⟩, before ++ window.loads content place bytes.length destination.length⟩) := by
  induction destination with
  | nil =>
      intro offset before _
      simp [UserWindow.copyFromAt, UserWindow.readable, UserWindow.loads]
  | cons old rest ih =>
      intro offset before fits
      simp only [UserWindow.copyFromAt, List.length_cons, UserWindow.readable,
        window.probeAt_watched content fits]
      cases visible : window.visible? content (start.toNat + offset) with
      | none => simp [UserWindow.loads_zero]
      | some byte =>
          have next := window.fits_below (UserWindow.visible_below visible)
          simp only [Option.elim_some, ih _ _ next]
          simp [UserWindow.loads_succ visible, Nat.add_assoc, Nat.add_comm 1]

end

section

variable {memory : Type} [FaultingAccess memory] (window : UserWindow)
  {content : UInt64 → Option UInt8} {user : memory}

theorem UserWindow.copyFrom_watched (fixed : LoadsFixed content user) (start : UInt64)
    (destination : List UInt8) :
    let bytes := window.readable content start.toNat destination.length
    let outcome := window.copyFrom start destination (Watched.mk user [])
    outcome.1.destination = bytes ++ destination.drop bytes.length ∧
      outcome.1.copied = bytes.length ∧
      outcome.2.accesses =
        window.loads content start.toNat bytes.length destination.length := by
  have alike : WatchedAlike (Watched.mk user []) (Watched.mk (Steady.mk content) []) := ⟨fixed, rfl⟩
  have agree := window.copyFromAt_agree WatchedAlike.loads alike start 0 destination
  have steady := window.copyFromAt_watched content start destination 0 [] start.toNat_lt
  simp only [Nat.add_zero, List.nil_append] at steady
  intro bytes outcome
  have result : outcome.1 = _ := agree.result
  have accesses : outcome.2.accesses = _ := agree.related.accesses
  rw [steady] at result accesses
  rw [result, accesses]
  exact ⟨rfl, rfl, rfl⟩

theorem UserWindow.copyFrom_unwatched (user : memory) (start : UInt64)
    (destination : List UInt8) :
    Agree (fun (watched : Watched memory) (user : memory) => watched.user = user)
      (window.copyFrom start destination (Watched.mk user []))
      (window.copyFrom start destination user) :=
  window.copyFromAt_agree watched_loads rfl start 0 destination

theorem UserWindow.readWord_fixed (fixed : LoadsFixed content user) (address : UInt64) :
    (window.readWord address user).1 =
      let bytes := window.readable content address.toNat 8
      if bytes.length < 8 then .error (address + UInt64.ofNat bytes.length)
      else .ok (UInt64.ofNat (littleEndian bytes)) := by
  have same := (window.copyFrom_unwatched user address (List.replicate 8 0)).result
  obtain ⟨destination, copied, _⟩ := window.copyFrom_watched fixed address (List.replicate 8 0)
  have atMost := window.readable_length_le content address.toNat 8
  rw [same, List.length_replicate] at destination copied
  unfold UserWindow.readWord
  dsimp only
  rw [copied]
  by_cases short : (window.readable content address.toNat 8).length < 8
  · rw [if_pos short, if_pos short]
  · have full : (window.readable content address.toNat 8).length = 8 := by omega
    rw [if_neg short, if_neg short, destination, full]
    simp

/-- The copy, with a check that the sum for each address fits a word. -/
def UserWindow.copyFromChecked (window : UserWindow) (start : UInt64) :
    (offset : Nat) → (destination : List UInt8) → memory → Except MachineFault (CopyIn × memory)
  | _, [], user => return (⟨[], 0, none⟩, user)
  | offset, old :: rest, user => do
      ensure (start.toNat + offset < wordLimit) .overflow
      match window.probeAt start offset user with
      | (.error address, user) => return (⟨old :: rest, 0, some address⟩, user)
      | (.ok byte, user) =>
          let (copy, user) ← window.copyFromChecked start (offset + 1) rest user
          return (⟨byte :: copy.destination, copy.copied + 1, copy.fault⟩, user)

def UserWindow.readWordChecked (window : UserWindow) (address : UInt64) (user : memory) :
    Except MachineFault (Except UInt64 UInt64 × CopyIn × memory) := do
  let (copy, user) ← window.copyFromChecked address 0 (List.replicate 8 0) user
  if copy.copied < 8 then
    ensure (address.toNat + copy.copied < wordLimit) .overflow
    return (.error (address + UInt64.ofNat copy.copied), copy, user)
  else
    return (.ok (UInt64.ofNat (littleEndian copy.destination)), copy, user)

theorem UserWindow.copyFromChecked_ok {start : UInt64} (destination : List UInt8) :
    ∀ {offset : Nat} (user : memory), start.toNat + offset < wordLimit →
      window.copyFromChecked start offset destination user =
        .ok (window.copyFromAt start offset destination user) := by
  induction destination with
  | nil =>
      intro offset user _
      rfl
  | cons old rest ih =>
      intro offset user fits
      rw [UserWindow.copyFromChecked, UserWindow.copyFromAt, ensure_of fits]
      rcases read : window.probeAt start offset user with ⟨answer, after⟩
      cases answer with
      | error address => rfl
      | ok byte =>
          have next := window.fits_below (window.probeAt_below read)
          simp only [bind, Except.bind, ih after next]
          rfl

theorem UserWindow.readWordChecked_ok (address : UInt64) (user : memory) :
    window.readWordChecked address user = .ok (window.readWord address user) := by
  have start := address.toNat_lt
  have below := window.copied_below address 0 (List.replicate 8 0) user
  unfold UserWindow.readWordChecked UserWindow.readWord UserWindow.copyFrom
  rw [window.copyFromChecked_ok (List.replicate 8 0) user (by unfold wordLimit; omega)]
  rcases copied : window.copyFromAt address 0 (List.replicate 8 0) user with ⟨copy, after⟩
  rw [copied] at below
  have fits : address.toNat + copy.copied < wordLimit := by
    have bounded := window.top.toNat_lt
    unfold wordLimit
    by_cases none : copy.copied = 0
    · omega
    · have reached := below none
      dsimp only at reached
      omega
  simp only [bind, Except.bind, ensure_of fits]
  split <;> rfl

end

theorem littleEndian_lt (bytes : List UInt8) :
    littleEndian bytes < 1 <<< (8 * bytes.length) := by
  induction bytes with
  | nil => decide
  | cons byte rest ih =>
      have bounded := byte.toNat_lt
      rw [Nat.shiftLeft_eq, Nat.one_mul] at ih ⊢
      rw [List.length_cons, Nat.mul_succ, Nat.pow_add, littleEndian]
      omega

section

variable {memory : Type} [FaultingAccess memory] {window : UserWindow}
  {content : UInt64 → Option UInt8} {user : memory}

theorem UserWindow.readWord_ok (fixed : LoadsFixed content user) {start : UInt64}
    {bytes : List UInt8} (full : bytes.length = 8)
    (visible : ∀ offset < 8, window.visible? content (start.toNat + offset) = bytes[offset]?) :
    ∃ word, (window.readWord start user).1 = .ok word ∧ word.toNat = littleEndian bytes := by
  have readable : window.readable content start.toNat 8 = bytes := by
    rw [← full] at visible ⊢
    exact UserWindow.readable_of_visible visible
  have bounded := littleEndian_lt bytes
  rw [full] at bounded
  rw [window.readWord_fixed fixed, readable]
  dsimp only
  rw [full]
  exact ⟨_, rfl, UInt64.toNat_ofNat_of_lt' bounded⟩

theorem UserWindow.readWord_error (fixed : LoadsFixed content user) {start : UInt64} {offset : Nat}
    (first : IsLeast {other | other < 8 ∧ window.visible? content (start.toNat + other) = none}
      offset) :
    ∃ address, (window.readWord start user).1 = .error address ∧
      address.toNat = start.toNat + offset := by
  have length := UserWindow.readable_length_of_isLeast first
  have fits := window.readable_fits content start.toNat_lt 8
  have within := first.1.1
  rw [length] at fits
  rw [window.readWord_fixed fixed]
  dsimp only
  rw [length, if_pos within]
  refine ⟨_, rfl, ?_⟩
  have small : offset < UInt64.size := Nat.lt_trans within (by decide)
  rw [UInt64.toNat_add, UInt64.toNat_ofNat_of_lt' small]
  exact Nat.mod_eq_of_lt fits

/-- A copy brings the bytes up to the first that is not visible and leaves the rest of the
destination as it was. It loads what it brings, and the next byte if that lies below the boundary. A
word is read only if all its bytes are visible; else the first that is not is reported. No sum for
an address is ever too large. -/
theorem UserWindow.copies_until_invalid (config : Config) (fixed : LoadsFixed content user)
    (start : UInt64) :
    let window := config.window
    let byteAt := fun offset => window.visible? content (start.toNat + offset)
    (∀ destination : List UInt8,
      let outcome := window.copyFrom start destination (Watched.mk user [])
      let copied := outcome.1.copied
      IsGreatest {count | count ≤ destination.length ∧ ∀ offset < count, (byteAt offset).isSome}
          copied ∧
        (∀ offset, outcome.1.destination[offset]? =
          if offset < copied then byteAt offset else destination[offset]?) ∧
        outcome.2.accesses = window.loads content start.toNat copied destination.length ∧
        outcome.2.accesses.length = copied +
          (if copied < destination.length ∧ start.toNat + copied < config.userTop.toNat then 1
          else 0) ∧
        Agree (fun watched user => watched.user = user) outcome
          (window.copyFrom start destination user) ∧
        window.copyFromChecked start 0 destination user =
          .ok (window.copyFrom start destination user)) ∧
      (∀ bytes : List UInt8, bytes.length = 8 → (∀ offset < 8, byteAt offset = bytes[offset]?) →
        ∃ word, (window.readWord start user).1 = .ok word ∧ word.toNat = littleEndian bytes) ∧
      (∀ offset, IsLeast {other | other < 8 ∧ byteAt other = none} offset →
        ∃ address, (window.readWord start user).1 = .error address ∧
          address.toNat = start.toNat + offset) ∧
      window.readWordChecked start user = .ok (window.readWord start user) := by
  intro window byteAt
  refine ⟨?_, ?_, ?_, ?_⟩
  · intro destination outcome copied
    obtain ⟨after, count, accesses⟩ := window.copyFrom_watched fixed start destination
    have greatest := window.readable_isGreatest content start.toNat destination.length
    rw [← count] at greatest accesses
    refine ⟨greatest, ?_, accesses, ?_, window.copyFrom_unwatched user start destination, ?_⟩
    · intro offset
      rw [after, getElem?_overwritten, ← count]
      split
      · next inside => exact UserWindow.readable_getElem? (count ▸ inside)
      · rfl
    · rw [accesses, UserWindow.loads_length]
      rfl
    · exact window.copyFromChecked_ok destination user start.toNat_lt
  · intro bytes full visible
    exact UserWindow.readWord_ok fixed full visible
  · intro offset first
    exact UserWindow.readWord_error fixed first
  · exact window.readWordChecked_ok start user

end

/-- Five bytes are asked for where three can be read, and then a word. -/
theorem threeBytes_copied :
    LoadsFixed threeBytes.content threeBytes ∧
      (({} : Config).window.copyFrom 0x400000 (List.replicate 5 0xee)
        (Watched.mk threeBytes [])).2.accesses.length = 3 + 1 ∧
      ∃ address, (({} : Config).window.readWord 0x400000 threeBytes).1 = .error address ∧
        address.toNat = 0x400000 + 3 := by
  have whole := UserWindow.copies_until_invalid {} threeBytes.loadsFixed 0x400000
  refine ⟨threeBytes.loadsFixed, ?_, ?_⟩
  · have copied : (({} : Config).window.copyFrom 0x400000 (List.replicate 5 0xee)
        (Watched.mk threeBytes [])).1.copied = 3 := by
      decide +kernel
    rw [(whole.1 (List.replicate 5 0xee)).2.2.2.1, copied]
    rfl
  · apply whole.2.2.1 3
    constructor
    · exact ⟨by decide, by decide +kernel⟩
    · have visible : ∀ other < 3, ({} : Config).window.visible? threeBytes.content
          (UInt64.toNat 0x400000 + other) ≠ none := by
        decide +kernel
      rintro other ⟨_, hidden⟩
      exact Nat.le_of_not_lt fun before => visible other before hidden

end KernelPaging
