import ClientGen.Config
import Mathlib.Data.List.Lex
import Mathlib.Data.String.Basic

/-! # Texts and their bytes

The bytes of a text tell the text, and sorting texts by characters is sorting them by bytes. Both
rest on one fact: the bytes of a smaller character come first at the first byte that differs.
-/
namespace ClientGen.Config

/-- A character with more bytes has the larger first byte; of one length, the bytes are the digits
of the character from the top. -/
theorem utf8EncodeChar_lt {c d : Char} (h : c < d) (xs ys : List UInt8) :
    String.utf8EncodeChar c ++ xs < String.utf8EncodeChar d ++ ys := by
  have hlt : c.val.toNat < d.val.toNat := UInt32.lt_iff_toNat_lt.mp (Char.lt_def.mp h)
  have hd : d.val.toNat < 1114112 := by
    rcases d.valid with hv | ⟨_,hv⟩
    · exact lt_trans hv (by decide)
    · exact hv
  generalize hm : c.val.toNat = m at hlt
  generalize hn : d.val.toNat = n at hlt hd
  have hlast (x : Nat) : (x % 64 + 128) % 2 ^ 8 = x % 64 + 128 := by omega
  have hfirst (x : Nat) : (x % 8 + 240) % 2 ^ 8 = x % 8 + 240 := by omega
  have hthird (x : Nat) : x / 4096 = x / 64 / 64 := by omega
  have hfourth (x : Nat) : x / 262144 = x / 64 / 64 / 64 := by omega
  simp only [String.utf8EncodeChar, hm, hn]
  split_ifs <;> simp only [List.cons_append, List.nil_append, List.cons_lt_cons_iff,
    UInt8.lt_iff_toNat_lt, ← UInt8.toNat_inj, UInt8.toNat_ofNat', hlast, hfirst, hthird,
    hfourth] <;> omega

theorem utf8_lt_of_lt {s t : String} (h : s < t) : utf8 s < utf8 t := by
  rw [String.lt_iff_toList_lt] at h
  unfold utf8
  generalize s.toList = cs at h
  generalize t.toList = ds at h
  induction cs generalizing ds with
  | nil =>
    cases ds with
    | nil => exact absurd h (List.lt_irrefl _)
    | cons d ds =>
      have hne : (d :: ds).flatMap String.utf8EncodeChar ≠ [] := by
        intro hnil
        have hlength := congrArg List.length hnil
        rw [List.flatMap_cons, List.length_append, String.length_utf8EncodeChar] at hlength
        have hpos := d.utf8Size_pos
        simp only [List.length_nil] at hlength
        omega
      obtain ⟨b,bs,hb⟩ := List.exists_cons_of_ne_nil hne
      rw [hb]
      exact List.nil_lt_cons b bs
  | cons c cs ih =>
    cases ds with
    | nil => exact absurd h (List.not_lt_nil _)
    | cons d ds =>
      rw [List.flatMap_cons, List.flatMap_cons]
      rcases List.cons_lt_cons_iff.mp h with hlt | ⟨rfl,hlt⟩
      · exact utf8EncodeChar_lt hlt _ _
      · exact List.append_left_lt (ih ds hlt)

/-- Texts are in order exactly when their bytes are. -/
theorem lt_iff_utf8_lt {s t : String} : s < t ↔ utf8 s < utf8 t := by
  refine ⟨utf8_lt_of_lt,fun h => ?_⟩
  by_contra hnot
  rcases Std.lt_trichotomy s t with hlt | rfl | hgt
  · exact hnot hlt
  · exact List.lt_irrefl _ h
  · exact List.lt_asymm h (utf8_lt_of_lt hgt)

theorem utf8_injective : Function.Injective utf8 := by
  intro s t h
  rcases Std.lt_trichotomy s t with hlt | heq | hgt
  · exact absurd (h ▸ utf8_lt_of_lt hlt) (List.lt_irrefl _)
  · exact heq
  · exact absurd (h ▸ utf8_lt_of_lt hgt) (List.lt_irrefl _)

end ClientGen.Config
