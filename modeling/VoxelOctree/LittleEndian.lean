namespace VoxelOctree

-- Powers of natural numbers are those of the core library here, whatever else is imported.
attribute [scoped instance (2000)] instPowNat

def littleEndian (n : Nat) : (count : Nat) → List UInt8
  | 0 => []
  | count + 1 => UInt8.ofNat n :: littleEndian (n / 256) count

def ofLittleEndian : List UInt8 → Nat
  | [] => 0
  | b :: rest => b.toNat + 256 * ofLittleEndian rest

@[simp] theorem length_littleEndian (n count : Nat) : (littleEndian n count).length = count := by
  induction count generalizing n with
  | zero => rfl
  | succ count ih => simp [littleEndian, ih]

theorem ofLittleEndian_littleEndian (n count : Nat) (h : n < 256 ^ count) :
    ofLittleEndian (littleEndian n count) = n := by
  induction count generalizing n with
  | zero => simp_all [littleEndian, ofLittleEndian]
  | succ count ih =>
    have hn : n / 256 < 256 ^ count := by
      rw [Nat.div_lt_iff_lt_mul (by omega), ← Nat.pow_succ]
      exact h
    simp only [littleEndian, ofLittleEndian, ih _ hn, UInt8.toNat_ofNat']
    omega

theorem littleEndian_inj {n n' count : Nat} (hn : n < 256 ^ count) (hn' : n' < 256 ^ count)
    (h : littleEndian n count = littleEndian n' count) : n = n' := by
  rw [← ofLittleEndian_littleEndian n count hn, h, ofLittleEndian_littleEndian n' count hn']

theorem ofLittleEndian_lt (bs : List UInt8) : ofLittleEndian bs < 256 ^ bs.length := by
  induction bs with
  | nil => simp [ofLittleEndian]
  | cons b rest ih =>
    have := b.toNat_lt
    simp only [ofLittleEndian, List.length_cons, Nat.pow_succ]
    omega

theorem ofLittleEndian_inj {bs bs' : List UInt8} (hlength : bs.length = bs'.length)
    (h : ofLittleEndian bs = ofLittleEndian bs') : bs = bs' := by
  induction bs generalizing bs' with
  | nil => exact (List.length_eq_zero_iff.mp hlength.symm).symm
  | cons b rest ih =>
    cases bs' with
    | nil => cases hlength
    | cons b' rest' =>
      have hb := b.toNat_lt
      have hb' := b'.toNat_lt
      simp only [ofLittleEndian] at h
      rw [UInt8.toNat_inj.mp (show b.toNat = b'.toNat by omega), ih (Nat.succ.inj hlength) (by omega)]

end VoxelOctree
