import Mathlib.Algebra.Ring.Nat

/-!
# Words, bytes and address ranges on a 32-bit machine

Little-endian words, rounding a word up to a block of 16, and half-open
address ranges.  Addresses are 32-bit words and additions on them wrap, so a
range is the set of addresses less than its length past its start; a range
that does not reach the end of the address space is an ordinary interval.
-/

namespace Words

/-! ## Little-endian words -/

def u16FromLeBytes (b0 b1 : UInt8) : UInt16 :=
  UInt16.ofNat (b0.toNat + 256 * b1.toNat)

def u32FromLeBytes (b0 b1 b2 b3 : UInt8) : UInt32 :=
  UInt32.ofNat
    (b0.toNat + 256 * b1.toNat + 65536 * b2.toNat + 16777216 * b3.toNat)

def u16ToLeBytes (word : UInt16) : List UInt8 :=
  [UInt8.ofNat word.toNat, UInt8.ofNat (word.toNat / 256)]

def u32ToLeBytes (word : UInt32) : List UInt8 :=
  [UInt8.ofNat word.toNat, UInt8.ofNat (word.toNat / 256),
    UInt8.ofNat (word.toNat / 65536), UInt8.ofNat (word.toNat / 16777216)]

@[simp] theorem length_u16ToLeBytes (word : UInt16) :
    (u16ToLeBytes word).length = 2 := rfl

@[simp] theorem length_u32ToLeBytes (word : UInt32) :
    (u32ToLeBytes word).length = 4 := rfl

theorem u16FromLeBytes_toLeBytes (word : UInt16) :
    u16FromLeBytes (UInt8.ofNat word.toNat)
      (UInt8.ofNat (word.toNat / 256)) = word := by
  have bound := word.toNat_lt
  apply UInt16.toNat_inj.mp
  simp only [u16FromLeBytes, UInt16.toNat_ofNat', UInt8.toNat_ofNat']
  omega

theorem u32FromLeBytes_toLeBytes (word : UInt32) :
    u32FromLeBytes (UInt8.ofNat word.toNat)
      (UInt8.ofNat (word.toNat / 256)) (UInt8.ofNat (word.toNat / 65536))
      (UInt8.ofNat (word.toNat / 16777216)) = word := by
  have bound := word.toNat_lt
  apply UInt32.toNat_inj.mp
  simp only [u32FromLeBytes, UInt32.toNat_ofNat', UInt8.toNat_ofNat']
  omega

/-! ## Rounding up to a block of 16 -/

/-- The least multiple of 16 that is at least `n`. -/
def roundUp16 (n : Nat) : Nat := (n + 15) / 16 * 16

theorem le_roundUp16 (n : Nat) : n ≤ roundUp16 n := by
  unfold roundUp16
  omega

theorem roundUp16_lt (n : Nat) : roundUp16 n < n + 16 := by
  unfold roundUp16
  omega

theorem roundUp16_mod (n : Nat) : roundUp16 n % 16 = 0 := by
  unfold roundUp16
  omega

/-- Clearing the low four bits of a word rounds it down to a multiple of
16. -/
private theorem toNat_and_not15 (word : UInt32) :
    (word &&& ~~~15).toNat = word.toNat / 16 * 16 := by
  have bound := word.toNat_lt
  have mask : (~~~15 : UInt32).toNat = (2 ^ 28 - 1) * 2 ^ 4 := by decide
  rw [UInt32.toNat_and, mask]
  apply Nat.eq_of_testBit_eq
  intro bit
  rw [show 16 = 2 ^ 4 by rfl, Nat.testBit_and, Nat.testBit_mul_two_pow,
    Nat.testBit_mul_two_pow, Nat.testBit_div_two_pow,
    Nat.testBit_two_pow_sub_one]
  by_cases low : 4 ≤ bit
  · rw [Nat.sub_add_cancel low]
    by_cases high : bit < 32
    · have inside : bit - 4 < 28 := by omega
      simp [low, inside]
    · have zero : word.toNat.testBit bit = false :=
        Nat.testBit_lt_two_pow (Nat.lt_of_lt_of_le bound
          (Nat.pow_le_pow_right (by decide) (Nat.le_of_not_lt high)))
      simp [zero]
  · simp [low]

/-- The idiom `(n + 15) & !15` on a word that does not overflow. -/
theorem toNat_add_and_not15 (word : UInt32)
    (small : word.toNat + 15 < 2 ^ 32) :
    ((word + 15) &&& ~~~15).toNat = roundUp16 word.toNat := by
  rw [toNat_and_not15, UInt32.toNat_add]
  have sum : (word.toNat + (15 : UInt32).toNat) % 2 ^ 32 =
      word.toNat + 15 := Nat.mod_eq_of_lt small
  rw [sum, roundUp16]

/-! ## Address ranges -/

/-- `address` lies in the half-open range of `len` addresses from `start`. -/
def InRange (start : UInt32) (len : Nat) (address : UInt32) : Prop :=
  (address - start).toNat < len

instance (start : UInt32) (len : Nat) (address : UInt32) :
    Decidable (InRange start len address) :=
  inferInstanceAs (Decidable (_ < _))

theorem inRange_add_ofNat {start : UInt32} {len index : Nat}
    (small : index < 2 ^ 32) :
    InRange start len (start + UInt32.ofNat index) ↔ index < len := by
  have back : start + UInt32.ofNat index - start = UInt32.ofNat index := by
    rw [UInt32.add_comm, UInt32.add_sub_cancel]
  unfold InRange
  rw [back, UInt32.toNat_ofNat', Nat.mod_eq_of_lt small]

theorem inRange_iff_exists {start : UInt32} {len : Nat} {address : UInt32}
    (small : len ≤ 2 ^ 32) :
    InRange start len address ↔
      ∃ index < len, address = start + UInt32.ofNat index := by
  constructor
  · intro inside
    refine ⟨(address - start).toNat, inside, ?_⟩
    rw [UInt32.ofNat_toNat, UInt32.add_comm, UInt32.sub_add_cancel]
  · rintro ⟨index, below, rfl⟩
    exact (inRange_add_ofNat (Nat.lt_of_lt_of_le below small)).mpr below

/-- A range that stays inside the address space is an interval. -/
theorem inRange_iff_of_le {start : UInt32} {len : Nat} {address : UInt32}
    (fits : start.toNat + len ≤ 2 ^ 32) :
    InRange start len address ↔
      start.toNat ≤ address.toNat ∧ address.toNat < start.toNat + len := by
  have startBound := start.toNat_lt
  have addressBound := address.toNat_lt
  unfold InRange
  rw [UInt32.toNat_sub]
  omega

theorem InRange.mono {start : UInt32} {small large : Nat}
    {address : UInt32} (inside : InRange start small address)
    (le : small ≤ large) : InRange start large address :=
  Nat.lt_of_lt_of_le inside le

/-- Two intervals share no address exactly when one of them is empty or they
follow each other. -/
theorem inRange_disjoint_iff {start start' : UInt32} {len len' : Nat}
    (fits : start.toNat + len ≤ 2 ^ 32)
    (fits' : start'.toNat + len' ≤ 2 ^ 32) :
    (∀ address, InRange start len address →
        ¬ InRange start' len' address) ↔
      len = 0 ∨ len' = 0 ∨ start.toNat + len ≤ start'.toNat ∨
        start'.toNat + len' ≤ start.toNat := by
  simp only [inRange_iff_of_le fits, inRange_iff_of_le fits']
  constructor
  · intro apart
    have atStart := apart start
    have atStart' := apart start'
    omega
  · intro order address inside inside'
    omega

/-- Indexing twice from a start is indexing once by the sum. -/
theorem add_ofNat_add_ofNat (start : UInt32) (first second : Nat) :
    start + UInt32.ofNat first + UInt32.ofNat second =
      start + UInt32.ofNat (first + second) := by
  rw [UInt32.ofNat_add, UInt32.add_assoc]

/-! ## Tilings -/

/-- The spans `(start, length)` follow each other without gap or overlap from
the first bound to the second, and none of them is empty. -/
inductive Tiles : Nat → Nat → List (Nat × Nat) → Prop where
  | nil (stop : Nat) : Tiles stop stop []
  | cons {start len stop : Nat} {spans : List (Nat × Nat)} :
      0 < len → Tiles (start + len) stop spans →
      Tiles start stop ((start, len) :: spans)

end Words
