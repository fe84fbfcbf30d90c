import KernelPaging.Page.Region

/-!
The bitmap as a set of pages. Marking a page adds it to the taken pages or removes it from them and
touches no other page, the search only ever finds a free page of the region, and the count of free
pages goes with it.
-/

set_option autoImplicit false

namespace KernelPaging

def Bitmap.Covers (bitmap : Bitmap) : Prop :=
  bitmap.total ≤ bitmap.words.size * wordBits

theorem Bitmap.allFree_covers (total : Nat) : (Bitmap.allFree total).Covers := by
  unfold Bitmap.Covers Bitmap.allFree wordBits
  simp only [Array.size_replicate]
  omega

theorem Bitmap.allFree_isFree (total page : Nat) : (Bitmap.allFree total).isFree page = true := by
  have blank : ((Bitmap.allFree total).words.getD (page / wordBits) 0) = 0 := by
    unfold Bitmap.allFree
    simp only [Array.getD_eq_getD_getElem?, Array.getElem?_replicate]
    split
    · rfl
    · rfl
  unfold Bitmap.isFree
  rw [blank]
  simp

theorem page_eq_iff_same_bit (left right : Nat) :
    left = right ↔ left / wordBits = right / wordBits ∧ left % wordBits = right % wordBits := by
  constructor
  · intro same
    subst same
    exact ⟨rfl, rfl⟩
  · intro same
    have leftParts := Nat.div_add_mod left wordBits
    have rightParts := Nat.div_add_mod right wordBits
    rw [same.1, same.2] at leftParts
    exact leftParts.symm.trans rightParts

theorem bit_within_word (page : Nat) : page % wordBits < 64 :=
  Nat.mod_lt page (by decide)

theorem getD_words_modify (words : Array (BitVec 64)) (index other : Nat)
    (change : BitVec 64 → BitVec 64) :
    (words.modify index change).getD other 0 =
      if index = other ∧ other < words.size then change (words.getD other 0)
      else words.getD other 0 := by
  simp only [Array.getD_eq_getD_getElem?, Array.getElem?_modify]
  by_cases same : index = other
  · rw [if_pos same]
    by_cases within : other < words.size
    · rw [if_pos ⟨same, within⟩, Array.getElem?_eq_getElem within]
      rfl
    · rw [if_neg (fun both => within both.2), Array.getElem?_eq_none (Nat.le_of_not_lt within)]
      rfl
  · rw [if_neg same, if_neg (fun both => same both.1)]

theorem Bitmap.isFree_markTaken {bitmap : Bitmap} (covers : bitmap.Covers) {page : Nat}
    (within : page < bitmap.total) (other : Nat) :
    (bitmap.markTaken page).isFree other = (decide (other ≠ page) && bitmap.isFree other) := by
  have word : page / wordBits < bitmap.words.size := by
    unfold Bitmap.Covers at covers
    exact Nat.div_lt_of_lt_mul (Nat.lt_of_lt_of_le within (Nat.mul_comm _ _ ▸ covers))
  unfold Bitmap.isFree Bitmap.markTaken
  rw [getD_words_modify]
  by_cases sameWord : page / wordBits = other / wordBits
  · rw [if_pos ⟨sameWord, sameWord ▸ word⟩, BitVec.getLsbD_or, BitVec.getLsbD_twoPow]
    by_cases sameBit : page % wordBits = other % wordBits
    · have same : other = page := ((page_eq_iff_same_bit page other).mpr ⟨sameWord, sameBit⟩).symm
      simp [sameBit, same, bit_within_word]
    · have different : other ≠ page := fun same => sameBit (same ▸ rfl)
      simp [sameBit, different]
  · have different : other ≠ page := fun same => sameWord (same ▸ rfl)
    rw [if_neg (fun both => sameWord both.1)]
    simp [different]

theorem Bitmap.isFree_markFree (bitmap : Bitmap) (page other : Nat) :
    (bitmap.markFree page).isFree other = (decide (other = page) || bitmap.isFree other) := by
  unfold Bitmap.isFree Bitmap.markFree
  rw [getD_words_modify]
  by_cases sameWord : page / wordBits = other / wordBits
  · by_cases word : other / wordBits < bitmap.words.size
    · rw [if_pos ⟨sameWord, word⟩, BitVec.getLsbD_and, BitVec.getLsbD_not, BitVec.getLsbD_twoPow]
      by_cases sameBit : page % wordBits = other % wordBits
      · have same : other = page := ((page_eq_iff_same_bit page other).mpr ⟨sameWord, sameBit⟩).symm
        simp [sameBit, same, bit_within_word]
      · have different : other ≠ page := fun same => sameBit (same ▸ rfl)
        simp [sameBit, different, bit_within_word]
    · -- Behind the last word every page counts as free.
      have blank : bitmap.words.getD (other / wordBits) 0 = 0 := by
        rw [Array.getD_eq_getD_getElem?, Array.getElem?_eq_none (Nat.le_of_not_lt word)]
        rfl
      rw [if_neg (fun both => word both.2), blank]
      simp
  · have different : other ≠ page := fun same => sameWord (same ▸ rfl)
    rw [if_neg (fun both => sameWord both.1)]
    simp [different]

theorem Bitmap.findFree_sound {bitmap : Bitmap} (positive : 0 < bitmap.total) (remaining : Nat) :
    ∀ start page, bitmap.findFree start remaining = some page →
      page < bitmap.total ∧ bitmap.isFree page = true := by
  induction remaining with
  | zero =>
      intro start page found
      cases found
  | succ remaining ih =>
      intro start page found
      unfold Bitmap.findFree at found
      split at found
      · next free =>
        cases found
        exact ⟨Nat.mod_lt start positive, free⟩
      · exact ih (start + 1) page found

theorem Bitmap.take_spec {bitmap after : Bitmap} {page : Nat} (covers : bitmap.Covers)
    (taken : bitmap.take = some (page, after)) :
    page < bitmap.total ∧ bitmap.isFree page = true ∧ after.total = bitmap.total ∧
      after.Covers ∧ after.free + 1 = bitmap.free ∧
      ∀ other, after.isFree other = (decide (other ≠ page) && bitmap.isFree other) := by
  unfold Bitmap.take at taken
  split at taken
  · cases taken
  · next some_free =>
    split at taken
    · cases taken
    · next found =>
      cases taken
      have positive : 0 < bitmap.total := by
        apply Nat.pos_of_ne_zero
        intro none
        rw [none] at found
        cases found
      have spec := Bitmap.findFree_sound positive _ _ _ found
      have size : (bitmap.markTaken page).words.size = bitmap.words.size := Array.size_modify
      refine ⟨spec.1, spec.2, rfl, ?_, ?_, ?_⟩
      · unfold Bitmap.Covers
        rw [size]
        exact covers
      · change bitmap.free - 1 + 1 = bitmap.free
        omega
      · exact Bitmap.isFree_markTaken covers spec.1

theorem Bitmap.give_covers {bitmap : Bitmap} (covers : bitmap.Covers) (page : Nat) :
    (bitmap.give page).Covers := by
  have size : (bitmap.give page).words.size = bitmap.words.size := Array.size_modify
  unfold Bitmap.Covers
  rw [size]
  exact covers

theorem Bitmap.isFree_give (bitmap : Bitmap) (page other : Nat) :
    (bitmap.give page).isFree other = (decide (other = page) || bitmap.isFree other) :=
  bitmap.isFree_markFree page other

end KernelPaging
