import Mathlib.Data.List.Forall2
import SiteRouter.Text.Percent
import SiteRouter.Proofs.Text.Utf8

/-!
# Percent escapes are read as they were written

Reading an encoded text adds its octets to those that wait to be decoded, and only the end of the
text decodes them (`carries_encodeChars`). So texts may be encoded piece by piece, with other ASCII
characters between them, and are read back as a whole: what a text carries (`Carries`) is put
together from what its pieces carry.
-/

namespace SiteRouter.Text.Percent

/-! ## Octets -/

/-- The two digits of an escape stand for its octet. -/
theorem octet?_digits {b : Nat} (h : b < 256) :
    octet? (upperHexDigit (b / 16)) (upperHexDigit (b % 16)) = some b := by
  have hdigit : ∀ n < 16, hexValue? (upperHexDigit n) = some n := by decide
  have hhigh : b / 16 < 16 := by omega
  have hlow : b % 16 < 16 := by omega
  have hsum : b / 16 * 16 + b % 16 = b := by omega
  rw [octet?, hdigit _ hhigh, hdigit _ hlow]
  dsimp only
  rw [hsum]

/-- An octet that is not escaped is an ASCII character. -/
theorem isPlain_lt {safe : List Char} {b : Nat} (h : isPlain safe b = true) : b < 0x80 := by
  unfold isPlain isUnreserved at h
  simp only [Bool.or_eq_true, Bool.and_eq_true, decide_eq_true_eq, beq_iff_eq] at h
  omega

/-- The code of an ASCII character. -/
theorem toNat_ofNat_of_lt {b : Nat} (h : b < 0x80) : (Char.ofNat b).toNat = b := by
  have hvalid : b.isValidChar := Or.inl (by omega)
  rw [Char.ofNat, dif_pos hvalid]
  rfl

/-! ## Reading -/

/-- An ASCII character other than the percent sign is an octet. -/
theorem decodeAfter_ascii {c : Char} (hc : c ≠ '%') (hascii : c.toNat < 0x80) (pending : List Nat)
    (rest : List Char) :
    decodeAfter pending (c :: rest) = decodeAfter (c.toNat :: pending) rest := by
  rw [decodeAfter, if_pos hascii]
  intro high low rest' heq
  exact absurd heq hc

/-- An encoded octet is read as the octet. -/
theorem decodeAfter_encodeOctet {safe : List Char} (hsafe : '%' ∉ safe) {b : Nat} (hb : b < 256)
    (pending : List Nat) (rest : List Char) :
    decodeAfter pending (encodeOctet safe b ++ rest) = decodeAfter (b :: pending) rest := by
  unfold encodeOctet
  split
  · next hplain =>
    have hlt := isPlain_lt hplain
    -- Only a percent sign that stands for itself could be taken for the start of an escape.
    have hne : Char.ofNat b ≠ '%' := by
      intro heq
      have hcode : b = 0x25 := by
        rw [← toNat_ofNat_of_lt hlt, heq]
        rfl
      subst hcode
      rw [isPlain, Bool.or_eq_true, Bool.and_eq_true, List.contains_iff_mem] at hplain
      rcases hplain with hplain | ⟨-, hmem⟩
      · exact absurd hplain (by decide)
      · exact hsafe hmem
    have hcode := toNat_ofNat_of_lt hlt
    rw [List.singleton_append, decodeAfter_ascii hne (by omega), hcode]
  · show decodeAfter pending ('%' :: upperHexDigit (b / 16) :: upperHexDigit (b % 16) :: rest) = _
    rw [decodeAfter, octet?_digits hb]

/-! ## Texts that carry others -/

/-- The text carries another one: wherever it is read, the octets of the other one wait to be
decoded with those before them. -/
def Carries (cs t : List Char) : Prop :=
  ∀ (pending : List Nat) (rest : List Char),
    decodeAfter pending (cs ++ rest) = decodeAfter ((Utf8.encode t).reverse ++ pending) rest

/-- A text is read as the one that it carries. -/
theorem Carries.decodeChars_eq {cs t : List Char} (h : Carries cs t) : decodeChars cs = t := by
  have hread := h [] []
  rw [List.append_nil, List.append_nil] at hread
  rw [decodeChars, hread, decodeAfter, List.reverse_reverse, Utf8.decode_encode]

/-- Texts one after the other carry theirs one after the other: no octet is decoded in between. -/
theorem Carries.append {cs cs' t t' : List Char} (h : Carries cs t) (h' : Carries cs' t') :
    Carries (cs ++ cs') (t ++ t') := by
  intro pending rest
  rw [List.append_assoc, h, h', Utf8.encode_append, List.reverse_append, List.append_assoc]

/-- An encoded text carries the text. -/
theorem carries_encodeChars {safe : List Char} (hsafe : '%' ∉ safe) (s : List Char) :
    Carries (encodeChars safe s) s := by
  intro pending rest
  have hoctets : ∀ b ∈ Utf8.encode s, b < 256 := fun b hb => Utf8.lt_of_mem_encode hb
  unfold encodeChars
  -- The octets that wait are in reverse, so each step puts one more before them.
  generalize Utf8.encode s = octets at hoctets
  induction octets generalizing pending with
  | nil => rfl
  | cons b octets ih =>
    rw [List.forall_mem_cons] at hoctets
    rw [List.flatMap_cons, List.append_assoc, decodeAfter_encodeOctet hsafe hoctets.1,
      ih _ hoctets.2, List.reverse_cons, List.append_assoc, List.singleton_append]

/-- An ASCII character other than the percent sign carries itself. -/
theorem carries_singleton {c : Char} (hc : c ≠ '%') (hascii : c.toNat < 0x80) :
    Carries [c] [c] := by
  intro pending rest
  rw [List.singleton_append, decodeAfter_ascii hc hascii, Utf8.encode_cons, Utf8.encode_nil,
    List.append_nil, Utf8.encodeChar_ascii hascii]
  rfl

/-- Texts with a separator between them carry theirs with the separator between them. -/
theorem Carries.intercalate {separator : List Char} (hseparator : Carries separator separator)
    {texts carried : List (List Char)} (h : List.Forall₂ Carries texts carried) :
    Carries (separator.intercalate texts) (separator.intercalate carried) := by
  induction h with
  | nil => exact fun _ _ => rfl
  | cons hfirst hrest ih =>
    cases hrest with
    | nil =>
      rw [List.intercalate_singleton, List.intercalate_singleton]
      exact hfirst
    | cons =>
      rw [List.intercalate_cons_cons, List.intercalate_cons_cons]
      exact (hfirst.append hseparator).append ih

/-- An encoded text is read as the text. -/
theorem decodeChars_encodeChars {safe : List Char} (hsafe : '%' ∉ safe) (s : List Char) :
    decodeChars (encodeChars safe s) = s :=
  (carries_encodeChars hsafe s).decodeChars_eq

/-- Encoded texts with an ASCII character between them are read as the texts with it between
them. -/
theorem decodeChars_intercalate {safe : List Char} (hsafe : '%' ∉ safe) {c : Char} (hc : c ≠ '%')
    (hascii : c.toNat < 0x80) (ts : List (List Char)) :
    decodeChars ([c].intercalate (ts.map (encodeChars safe))) = [c].intercalate ts := by
  have hparts : List.Forall₂ Carries (ts.map (encodeChars safe)) ts := by
    rw [List.forall₂_map_left_iff, List.forall₂_same]
    exact fun t _ => carries_encodeChars hsafe t
  exact (Carries.intercalate (carries_singleton hc hascii) hparts).decodeChars_eq

/-! ## Texts with characters -/

/-- A text with characters is encoded as one. -/
theorem encodeChars_ne_nil (safe : List Char) {s : List Char} (h : s ≠ []) :
    encodeChars safe s ≠ [] := by
  cases s with
  | nil => exact absurd rfl h
  | cons c s =>
    obtain ⟨b, octets, hoctets⟩ := List.exists_cons_of_ne_nil (Utf8.encodeChar_ne_nil c)
    rw [encodeChars, Utf8.encode_cons, hoctets, List.cons_append, List.flatMap_cons, encodeOctet]
    split <;> exact List.cons_ne_nil _ _

/-- What waits to be decoded becomes characters, whatever follows it. -/
theorem decodeAfter_ne_nil {pending : List Nat} {cs : List Char} (h : pending ≠ [] ∨ cs ≠ []) :
    decodeAfter pending cs ≠ [] := by
  fun_induction decodeAfter pending cs with
  | case1 pending =>
    have hpending : pending ≠ [] := h.resolve_right fun hcs => hcs rfl
    exact Utf8.decode_ne_nil (List.reverse_ne_nil_iff.2 hpending)
  | case2 pending high low rest b hoctet ih => exact ih (.inl (List.cons_ne_nil b pending))
  | case3 pending high low rest hoctet ih => exact ih (.inl (List.cons_ne_nil _ pending))
  | case4 pending c rest hescape hascii ih => exact ih (.inl (List.cons_ne_nil _ pending))
  | case5 pending c rest hescape hascii ih =>
    exact List.append_ne_nil_of_right_ne_nil _ (List.cons_ne_nil c _)

/-- A text with characters is read as one. -/
theorem decodeChars_ne_nil {cs : List Char} (h : cs ≠ []) : decodeChars cs ≠ [] :=
  decodeAfter_ne_nil (.inr h)

/-! ## An ASCII character at the start -/

/-- The octet that has waited longest is the first character, if it is ASCII. -/
theorem decodeAfter_concat {b : Nat} (hb : b < 0x80) (pending : List Nat) (cs : List Char) :
    decodeAfter (pending ++ [b]) cs = Char.ofNat b :: decodeAfter pending cs := by
  have hdecode : ∀ pending : List Nat, Utf8.decode (pending ++ [b]).reverse =
      Char.ofNat b :: Utf8.decode pending.reverse := by
    intro pending
    rw [List.reverse_append, List.reverse_singleton, List.singleton_append, Utf8.decode_one hb]
  fun_induction decodeAfter pending cs with
  | case1 pending => exact hdecode pending
  | case2 pending high low rest octet hoctet ih =>
    rw [← ih, List.cons_append, decodeAfter, hoctet]
  | case3 pending high low rest hoctet ih =>
    rw [← ih, List.cons_append, decodeAfter, hoctet]
  | case4 pending c rest hescape hascii ih =>
    rw [← ih, List.cons_append, decodeAfter, if_pos hascii]
    exact hescape
  | case5 pending c rest hescape hascii ih =>
    rw [decodeAfter, if_neg hascii, hdecode, List.cons_append]
    exact hescape

/-- An ASCII character other than the percent sign stands for itself. -/
theorem decodeChars_cons {c : Char} (hc : c ≠ '%') (hascii : c.toNat < 0x80) (cs : List Char) :
    decodeChars (c :: cs) = c :: decodeChars cs := by
  have hread := decodeAfter_concat hascii [] cs
  rw [Char.ofNat_toNat] at hread
  exact (decodeAfter_ascii hc hascii [] cs).trans hread

/-! ## Characters of an encoded text -/

/-- An ASCII character that is neither unreserved nor safe does not stand in an encoded text, unless
it is the percent sign. -/
theorem not_mem_encodeChars {safe : List Char} {c : Char} (hreserved : isUnreserved c.toNat = false)
    (hsafe : c ∉ safe) (hpercent : c ≠ '%') (s : List Char) : c ∉ encodeChars safe s := by
  intro hmem
  obtain ⟨b, hb, hc⟩ := List.mem_flatMap.1 hmem
  have hoctet : b < 256 := Utf8.lt_of_mem_encode hb
  have hdigit : ∀ n < 16, isUnreserved (upperHexDigit n).toNat = true := by decide
  unfold encodeOctet at hc
  split at hc
  · next hplain =>
    have hcode := toNat_ofNat_of_lt (isPlain_lt hplain)
    rw [List.mem_singleton] at hc
    rw [isPlain, ← hcode, ← hc, hreserved, Bool.false_or, Bool.and_eq_true, hc, hcode,
      List.contains_iff_mem, ← hc] at hplain
    exact hsafe hplain.2
  -- An escape is a percent sign and two digits, which are unreserved.
  · simp only [escape, List.mem_cons, List.not_mem_nil, or_false] at hc
    rcases hc with rfl | rfl | rfl
    · exact hpercent rfl
    · rw [hdigit _ (by omega)] at hreserved
      cases hreserved
    · rw [hdigit _ (by omega)] at hreserved
      cases hreserved

/-- A text that is encoded without an escape is made of plain characters. -/
theorem isPlain_of_not_mem {safe s : List Char} (h : '%' ∉ encodeChars safe s) :
    ∀ c ∈ s, c.toNat < 0x80 ∧ isPlain safe c.toNat = true := by
  intro c hc
  have hplain : ∀ b ∈ Utf8.encodeChar c, isPlain safe b = true := by
    intro b hb
    refine Decidable.byContradiction fun hnot => h ?_
    refine List.mem_flatMap.2 ⟨b, List.mem_flatMap.2 ⟨c, hc, hb⟩, ?_⟩
    rw [encodeOctet, if_neg hnot]
    exact List.mem_cons_self
  -- The first octet of a longer character would be plain, but it is not ASCII.
  have hascii : c.toNat < 0x80 := by
    obtain ⟨b, octets, hoctets⟩ := List.exists_cons_of_ne_nil (Utf8.encodeChar_ne_nil c)
    have hfirst := isPlain_lt (hplain b (hoctets ▸ List.mem_cons_self))
    refine Decidable.byContradiction fun hlong => ?_
    have hb := Utf8.le_of_mem_encodeChar (Nat.le_of_not_lt hlong) (hoctets ▸ List.mem_cons_self)
    omega
  exact ⟨hascii, hplain c.toNat (by rw [Utf8.encodeChar_ascii hascii]; exact List.mem_cons_self)⟩

/-- Plain characters are encoded as they are. -/
theorem encodeChars_of_isPlain {safe s : List Char}
    (h : ∀ c ∈ s, c.toNat < 0x80 ∧ isPlain safe c.toNat = true) : encodeChars safe s = s := by
  induction s with
  | nil => rfl
  | cons c s ih =>
    rw [List.forall_mem_cons] at h
    have hone : encodeOctet safe c.toNat = [c] := by
      rw [encodeOctet, if_pos h.1.2, Char.ofNat_toNat]
    rw [encodeChars, Utf8.encode_cons, List.flatMap_append, Utf8.encodeChar_ascii h.1.1,
      List.flatMap_singleton, hone]
    exact congrArg (c :: ·) (ih h.2)

end SiteRouter.Text.Percent
