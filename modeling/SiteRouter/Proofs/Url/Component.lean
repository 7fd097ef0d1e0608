import SiteRouter.Pattern.Compiled
import SiteRouter.Proofs.Text.Percent

/-!
# Components of a URL

What a component is written with: an ASCII letter, a digit, one of four marks or a safe character
stands for itself, and the octets of any other character are escaped (`Escaped`). Texts are written
one after the other, so that no octet is lost or merged where they meet, and components with a slash
between them are read as their texts with a slash between them (`encodeComponent_codec`).
-/

namespace SiteRouter

open Text

/-! ## Kept characters and escapes -/

/-- Whether the character stands for itself, where the given ones are safe. -/
def isKept (safe : List Char) (c : Char) : Bool :=
  Regex.isAsciiLetter c || Regex.isAsciiDigit c || "-_.~".toList.contains c || safe.contains c

/-- Whether the character is a hexadecimal digit in upper case. -/
def isUpperHexDigit (c : Char) : Bool := "0123456789ABCDEF".toList.contains c

/-- The texts of kept characters and escapes. -/
inductive Escaped (safe : List Char) : List Char → Prop
  /-- A text without characters. -/
  | nil : Escaped safe []
  /-- A character that stands for itself comes first. -/
  | kept {c : Char} {cs : List Char} : isKept safe c = true → Escaped safe cs →
    Escaped safe (c :: cs)
  /-- A percent sign and two digits come first. -/
  | escape {high low : Char} {cs : List Char} : isUpperHexDigit high = true →
    isUpperHexDigit low = true → Escaped safe cs → Escaped safe ('%' :: high :: low :: cs)

/-- Such texts may follow each other. -/
theorem Escaped.append {safe s t : List Char} (hs : Escaped safe s) (ht : Escaped safe t) :
    Escaped safe (s ++ t) := by
  induction hs with
  | nil => exact ht
  | kept hc _ ih => exact .kept hc ih
  | escape hhigh hlow _ ih => exact .escape hhigh hlow ih

/-- The unreserved characters are the letters, the digits and the four marks. -/
theorem isUnreserved_eq (c : Char) : Percent.isUnreserved c.toNat =
    (Regex.isAsciiLetter c || Regex.isAsciiDigit c || "-_.~".toList.contains c) := by
  have hle : ∀ a b : Char, a ≤ b ↔ a.toNat ≤ b.toNat := fun _ _ => Iff.rfl
  have heq : ∀ a b : Char, a = b ↔ a.toNat = b.toNat := fun _ _ => Char.toNat_inj.symm
  have hmarks : "-_.~".toList = ['-', '_', '.', '~'] := by decide
  rw [Bool.eq_iff_iff, hmarks]
  simp only [Percent.isUnreserved, Regex.isAsciiLetter, Regex.isAsciiDigit, Bool.or_eq_true,
    Bool.and_eq_true, decide_eq_true_eq, beq_iff_eq, List.contains_iff_mem, List.mem_cons,
    List.not_mem_nil, or_false, hle, heq, Char.reduceToNat]
  omega

/-- An ASCII character is kept if its octet is plain. -/
theorem isPlain_eq (safe : List Char) {c : Char} (h : c.toNat < 0x80) :
    Percent.isPlain safe c.toNat = isKept safe c := by
  rw [Percent.isPlain, isUnreserved_eq, Char.ofNat_toNat, decide_eq_true h, Bool.true_and, isKept]

/-- A kept character is ASCII, where the safe ones are. -/
theorem lt_of_isKept {safe : List Char} (hsafe : ∀ c ∈ safe, c.toNat < 0x80) {c : Char}
    (h : isKept safe c = true) : c.toNat < 0x80 := by
  rw [isKept, ← isUnreserved_eq, Bool.or_eq_true, List.contains_iff_mem] at h
  rcases h with hunreserved | hmem
  · have hplain : Percent.isPlain [] c.toNat = true := by
      rw [Percent.isPlain, hunreserved, Bool.true_or]
    exact Percent.isPlain_lt hplain
  · exact hsafe c hmem

/-! ## What is written -/

/-- An octet is written as a kept character or as an escape. -/
theorem escaped_encodeOctet (safe : List Char) {b : Nat} (hb : b < 256) :
    Escaped safe (Percent.encodeOctet safe b) := by
  have hdigit : ∀ n < 16, isUpperHexDigit (upperHexDigit n) = true := by decide
  unfold Percent.encodeOctet
  split
  · next hplain =>
    have hcode := Percent.toNat_ofNat_of_lt (Percent.isPlain_lt hplain)
    have hascii : (Char.ofNat b).toNat < 0x80 := by
      rw [hcode]
      exact Percent.isPlain_lt hplain
    refine .kept ?_ .nil
    rwa [← isPlain_eq safe hascii, hcode]
  · exact .escape (hdigit _ (by omega)) (hdigit _ (by omega)) .nil

/-- A text is written with kept characters and escapes. -/
theorem escaped_encodeChars (safe s : List Char) : Escaped safe (Percent.encodeChars safe s) := by
  have hoctets : ∀ b ∈ Utf8.encode s, b < 256 := fun b hb => Utf8.lt_of_mem_encode hb
  unfold Percent.encodeChars
  generalize Utf8.encode s = octets at hoctets
  induction octets with
  | nil => exact .nil
  | cons b octets ih =>
    rw [List.forall_mem_cons] at hoctets
    rw [List.flatMap_cons]
    exact (escaped_encodeOctet safe hoctets.1).append (ih hoctets.2)

/-- Kept characters are written as they are. -/
theorem encodeChars_of_isKept {safe : List Char} (hsafe : ∀ c ∈ safe, c.toNat < 0x80)
    {s : List Char} (h : ∀ c ∈ s, isKept safe c = true) : Percent.encodeChars safe s = s := by
  refine Percent.encodeChars_of_isPlain fun c hc => ?_
  have hascii := lt_of_isKept hsafe (h c hc)
  rw [isPlain_eq safe hascii]
  exact ⟨hascii, h c hc⟩

/-! ## Components -/

/-- A text has a component. -/
theorem encodeComponent_str (safe : List Char) (s : String) :
    encodeComponent safe (.str s) = .ok (Percent.encode safe s) := by
  rw [encodeComponent, Value.stringify_str]
  rfl

theorem toList_encode (safe : List Char) (s : String) :
    (Percent.encode safe s).toList = Percent.encodeChars safe s.toList := by
  rw [Percent.encode, String.toList_ofList]

/-- Texts are encoded one after the other. -/
theorem encode_append (safe : List Char) (s t : String) :
    Percent.encode safe (s ++ t) = Percent.encode safe s ++ Percent.encode safe t := by
  refine String.toList_injective ?_
  rw [String.toList_append, toList_encode, toList_encode, toList_encode, String.toList_append,
    Percent.encodeChars_append]

/-- Encoded texts with slashes between them are read as the texts with slashes between them. -/
theorem decode_intercalate {safe : List Char} (hsafe : '%' ∉ safe) (ss : List String) :
    Percent.decode ("/".intercalate (ss.map (Percent.encode safe))) = "/".intercalate ss := by
  have hparts : (ss.map (Percent.encode safe)).map String.toList =
      (ss.map String.toList).map (Percent.encodeChars safe) := by
    rw [List.map_map, List.map_map]
    exact List.map_congr_left fun s _ => toList_encode safe s
  have hread := Percent.decodeChars_intercalate hsafe (c := '/') (by decide) (by decide)
    (ss.map String.toList)
  refine String.toList_injective ?_
  rw [Percent.decode, String.toList_ofList, String.toList_intercalate, hparts,
    String.toList_intercalate]
  exact hread

/-- A list of texts is encoded text by text. -/
theorem mapM_encodeComponent (safe : List Char) (ss : List String) :
    (ss.mapM fun t => encodeComponent safe (.str t)) = .ok (ss.map (Percent.encode safe)) := by
  simp only [encodeComponent_str]
  exact List.mapM_pure

/-- The codec of components, for the characters that are safe in a component and for those that are
safe in the value of a star. A text has a component and is read back from it. The component is made
of kept characters and escapes, and is the text itself if all of its characters are kept. Texts in a
row are encoded one after the other, and so a list of texts is read back with slashes between
them. -/
theorem encodeComponent_codec {safe : List Char} (h : safe = componentSafe ∨ safe = Pattern.starSafe)
    (s : String) :
    ∃ encoded, encodeComponent safe (.str s) = .ok encoded ∧
      Percent.decode encoded = s ∧ Escaped safe encoded.toList ∧
      ((∀ c ∈ s.toList, isKept safe c = true) → encoded = s) ∧
      (∀ t encoded', encodeComponent safe (.str t) = .ok encoded' →
        encodeComponent safe (.str (s ++ t)) = .ok (encoded ++ encoded')) ∧
      ∀ ss : List String, ∃ parts, (ss.mapM fun t => encodeComponent safe (.str t)) = .ok parts ∧
        Percent.decode ("/".intercalate parts) = "/".intercalate ss := by
  have hsafe : '%' ∉ safe ∧ (safe.all fun c => decide (c.toNat < 0x80)) = true := by
    rcases h with rfl | rfl <;> decide
  have hascii : ∀ c ∈ safe, c.toNat < 0x80 :=
    fun c hc => of_decide_eq_true (List.all_eq_true.1 hsafe.2 c hc)
  refine ⟨_, encodeComponent_str safe s, ?_, ?_, fun hkept => ?_, fun t encoded' ht => ?_,
    fun ss => ⟨_, mapM_encodeComponent safe ss, decode_intercalate hsafe.1 ss⟩⟩
  · rw [Percent.decode, toList_encode, Percent.decodeChars_encodeChars hsafe.1,
      String.ofList_toList]
  · rw [toList_encode]
    exact escaped_encodeChars safe s.toList
  · refine String.toList_injective ?_
    rw [toList_encode, encodeChars_of_isKept hascii hkept]
  · obtain rfl := Except.ok.inj ((encodeComponent_str safe t).symm.trans ht)
    rw [encodeComponent_str, encode_append]

/-- Characters of one to four octets come back, as do a percent sign and an escape that stood in the
text, and the parts of a list keep their places. -/
theorem encodeComponent_codec_octets :
    encodeComponent componentSafe (.str "a/%2Fé€😀") = .ok "a%2F%252F%C3%A9%E2%82%AC%F0%9F%98%80" ∧
      Percent.decode "a%2F%252F%C3%A9%E2%82%AC%F0%9F%98%80" = "a/%2Fé€😀" ∧
      Percent.decode "%C3%A9/%25//b" = "é/%//b" ∧
      encodeComponent componentSafe (.str "a-b_c.d!e~f*g'h(i)") = .ok "a-b_c.d!e~f*g'h(i)" ∧
      Escaped Pattern.starSafe "%C3%A9/%25".toList := by
  have hword : encodeComponent componentSafe (.str "a/%2Fé€😀") =
      .ok "a%2F%252F%C3%A9%E2%82%AC%F0%9F%98%80" := by rfl
  have hlist : (["é", "%", "", "b"].mapM fun t => encodeComponent componentSafe (.str t)) =
      .ok ["%C3%A9", "%25", "", "b"] := by rfl
  have hstar : encodeComponent Pattern.starSafe (.str "é/%") = .ok "%C3%A9/%25" := by rfl
  obtain ⟨_, h, hread, -, -, -, hjoin⟩ := encodeComponent_codec (.inl rfl) "a/%2Fé€😀"
  obtain rfl := Except.ok.inj (hword.symm.trans h)
  obtain ⟨_, h, -, -, hkept, -⟩ := encodeComponent_codec (.inl rfl) "a-b_c.d!e~f*g'h(i)"
  have hall : "a-b_c.d!e~f*g'h(i)".toList.all (isKept componentSafe) = true := by decide
  rw [hkept (List.all_eq_true.1 hall)] at h
  obtain ⟨_, h', -, hescaped, -⟩ := encodeComponent_codec (.inr rfl) "é/%"
  obtain rfl := Except.ok.inj (hstar.symm.trans h')
  obtain ⟨parts, hparts, hjoined⟩ := hjoin ["é", "%", "", "b"]
  obtain rfl := Except.ok.inj (hlist.symm.trans hparts)
  exact ⟨hword, hread, hjoined, h, hescaped⟩

end SiteRouter
