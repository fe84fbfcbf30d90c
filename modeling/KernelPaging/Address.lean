/-!
Virtual addresses of a machine with 48 translated bits, and hexadecimal numerals as the kernel prints
them. The seventeen highest bits of a canonical address agree, so the address space has a lower and
an upper half with a hole between them.
-/

set_option autoImplicit false

namespace KernelPaging

def pageSize : Nat := 4096

structure Address where
  value : Nat
  canonical : value < 0x800000000000 ∨ 0xffff800000000000 ≤ value ∧ value < 0x10000000000000000
deriving DecidableEq

instance : Inhabited Address := ⟨⟨0, .inl (by decide)⟩⟩

/-- The address a word stands for. A word with bit 47 as its highest set bit is sign-extended into
the upper half; one with any other disagreement above bit 46 is no address. -/
def Address.ofWord? (word : UInt64) : Option Address :=
  if low : word.toNat < 0x800000000000 then
    some ⟨word.toNat, .inl low⟩
  else if signBit : word.toNat < 0x1000000000000 then
    some ⟨word.toNat + 0xffff000000000000, .inr (by omega)⟩
  else if high : 0xffff800000000000 ≤ word.toNat then
    some ⟨word.toNat, .inr ⟨high, word.toNat_lt⟩⟩
  else
    none

theorem Address.value_lt (address : Address) : address.value < 0x10000000000000000 := by
  have := address.canonical
  omega

def Address.PageAligned (address : Address) : Prop :=
  address.value % pageSize = 0

instance (address : Address) : Decidable address.PageAligned :=
  inferInstanceAs (Decidable (_ = _))

/-- The nine bits that select an entry in a page table of the given level, where level zero maps
single pages. -/
def Address.tableIndex (address : Address) (level : Nat) : Nat :=
  (address.value >>> (12 + 9 * level)) % 512

def hexLower (value : Nat) : String :=
  "0x" ++ String.ofList (Nat.toDigits 16 value)

def hexUpper (value : Nat) : String :=
  "0x" ++ String.ofList ((Nat.toDigits 16 value).map Char.toUpper)

end KernelPaging
