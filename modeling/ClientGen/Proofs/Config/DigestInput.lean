import ClientGen.Proofs.Text.Utf8
import Mathlib.Algebra.Ring.Nat

/-! # Digest input

The bytes under a fingerprint tell the version and the list of all texts, since each text comes
after its length.
-/
namespace ClientGen.Config

/-! ## Numbers -/

@[simp] theorem length_littleEndian (n x : Nat) : (littleEndian n x).length = n := by
  induction n generalizing x with
  | zero => rfl
  | succ n ih => simp [littleEndian, ih]

/-- The bytes of a number tell it, as long as they are enough for it. -/
theorem littleEndian_inj {n x y : Nat} (hx : x < 256 ^ n) (hy : y < 256 ^ n)
    (h : littleEndian n x = littleEndian n y) : x = y := by
  induction n generalizing x y with
  | zero =>
    rw [pow_zero] at hx hy
    omega
  | succ n ih =>
    rw [pow_succ] at hx hy
    obtain ⟨hbyte,hrest⟩ := List.cons.inj h
    have hlow : x % 256 = y % 256 := by
      have hnat := congrArg UInt8.toNat hbyte
      rw [UInt8.toNat_ofNat', UInt8.toNat_ofNat'] at hnat
      omega
    have hhigh : x / 256 = y / 256 :=
      ih (Nat.div_lt_of_lt_mul (by rwa [mul_comm])) (Nat.div_lt_of_lt_mul (by rwa [mul_comm])) hrest
    omega

/-! ## Texts -/

/-- Texts whose lengths fit into the eight bytes that a length gets, as those of all texts in memory
do. -/
def Sized (texts : List String) : Prop :=
  ∀ s ∈ texts, (utf8 s).length < 256 ^ 8

instance (texts : List String) : Decidable (Sized texts) :=
  inferInstanceAs (Decidable (∀ s ∈ texts, (utf8 s).length < 256 ^ 8))

/-- A text after its length does not run into what follows. -/
theorem fieldBytes_append_inj {s t : String} (hs : (utf8 s).length < 256 ^ 8)
    (ht : (utf8 t).length < 256 ^ 8) {xs ys : List UInt8}
    (h : fieldBytes s ++ xs = fieldBytes t ++ ys) : s = t ∧ xs = ys := by
  rw [fieldBytes, fieldBytes, List.append_assoc, List.append_assoc] at h
  obtain ⟨hlength,h⟩ := List.append_inj h (by simp)
  obtain ⟨hbytes,hrest⟩ := List.append_inj h (littleEndian_inj hs ht hlength)
  exact ⟨utf8_injective hbytes,hrest⟩

theorem fieldBytes_ne_nil (s : String) : fieldBytes s ≠ [] := by
  intro h
  have hlength := congrArg List.length h
  simp [fieldBytes] at hlength

theorem flatMap_fieldBytes_inj {ss ts : List String} (hs : Sized ss) (ht : Sized ts)
    (h : ss.flatMap fieldBytes = ts.flatMap fieldBytes) : ss = ts := by
  induction ss generalizing ts with
  | nil =>
    cases ts with
    | nil => rfl
    | cons t ts => exact absurd (List.append_eq_nil_iff.mp h.symm).1 (fieldBytes_ne_nil t)
  | cons s ss ih =>
    cases ts with
    | nil => exact absurd (List.append_eq_nil_iff.mp h).1 (fieldBytes_ne_nil s)
    | cons t ts =>
      obtain ⟨hs,hss⟩ := List.forall_mem_cons.mp hs
      obtain ⟨ht,hts⟩ := List.forall_mem_cons.mp ht
      rw [List.flatMap_cons, List.flatMap_cons] at h
      obtain ⟨rfl,hrest⟩ := fieldBytes_append_inj hs ht h
      rw [ih hss hts hrest]

/-- The digest input tells all texts and their order, and nothing about what they stand for. -/
theorem digestInput_eq_iff_fields {c c' : Config} (hv : c.version < 256 ^ 4)
    (hv' : c'.version < 256 ^ 4) (hs : Sized c.fields) (hs' : Sized c'.fields) :
    c.digestInput = c'.digestInput ↔ c.version = c'.version ∧ c.fields = c'.fields := by
  constructor
  · intro h
    obtain ⟨hversion,hfields⟩ := List.append_inj h (by simp)
    exact ⟨littleEndian_inj hv hv' hversion,flatMap_fieldBytes_inj hs hs' hfields⟩
  · rintro ⟨hversion,hfields⟩
    rw [digestInput, digestInput, hversion, hfields]

end ClientGen.Config
