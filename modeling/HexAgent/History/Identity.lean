import HexAgent.History.Archive

/-!
# Identities in the archive

The writer stores a proof under a normalised key, the hints work with the identity as it comes in:
they trim it, strip `0x` or the part behind a colon, and lower the case of its bytes. The lemmas
here say that a hint for an identity works with the bytes and the filter bits of the key under
which the identity is stored (`absenceBytes_absenceKey`, `filterIndices_absenceKey`), and that the
bytes determine the key (`keyBytes_injective`).
-/

namespace HexAgent.History

open List UInt8

open HexAgent.Exchange (asciiLower)

variable (c : Char) (id : String) (kind : UInt8) (l : List Char) (ident : String)

/-! ## Bytes -/

lemma keyBytes_injective {a b : String} (h : keyBytes a = keyBytes b) : a = b := by
  have hbytes : a.toList.utf8Encode = b.toList.utf8Encode := congrArg toByteArray h
  rw [← String.toByteArray_ofList, ← String.toByteArray_ofList, String.toByteArray_inj,
    String.ofList_toList, String.ofList_toList] at hbytes
  exact hbytes

lemma toNat_toLower :
    65 ≤ c.val.toNat ∧ c.val.toNat ≤ 90 ∧ c.toLower.val.toNat = c.val.toNat + 32 ∨
      ¬ (65 ≤ c.val.toNat ∧ c.val.toNat ≤ 90) ∧ c.toLower.val.toNat = c.val.toNat := by
  unfold Char.toLower
  by_cases h : c.val ≥ 'A'.val ∧ c.val ≤ 'Z'.val
  · have h' : 65 ≤ c.val.toNat ∧ c.val.toNat ≤ 90 := h
    refine .inl ⟨h'.1, h'.2, ?_⟩
    rw [dif_pos h]
    show (c.val + 32).toNat = _
    have hstep : (32 : UInt32).toNat = 32 := rfl
    rw [UInt32.toNat_add]
    omega
  · refine .inr ⟨h, ?_⟩
    rw [dif_neg h]

lemma asciiLower_ofNat {v : ℕ} (hv : v < 256) :
    asciiLower (ofNat v) = ofNat (if 65 ≤ v ∧ v ≤ 90 then v + 32 else v) := by
  have hle : (65 ≤ ofNat v ∧ ofNat v ≤ 90) ↔ (65 ≤ v ∧ v ≤ 90) := by
    rw [le_iff_toNat_le, le_iff_toNat_le, toNat_ofNat_of_lt' hv]
    rfl
  unfold asciiLower
  simp only [hle]
  split
  · rw [ofNat_add]
    rfl
  · rfl

/-- Lowering the case of the bytes is lowering the case of the character. -/
lemma map_asciiLower_utf8EncodeChar :
    (String.utf8EncodeChar c).map asciiLower = String.utf8EncodeChar c.toLower := by
  have hlower := toNat_toLower c
  unfold String.utf8EncodeChar
  by_cases h1 : c.val.toNat ≤ 0x7f
  · have h2 : c.toLower.val.toNat ≤ 0x7f := by omega
    simp only [h1, h2, if_true, map_cons, map_nil]
    rw [asciiLower_ofNat (by omega)]
    rcases hlower with ⟨hlow, hhigh, heq⟩ | ⟨hne, heq⟩
    · rw [if_pos ⟨hlow, hhigh⟩, heq]
    · rw [if_neg hne, heq]
  · -- All bytes of a longer encoding lie above the letters.
    have hsame : c.toLower.val.toNat = c.val.toNat := by omega
    simp only [hsame, h1, if_false]
    have hhigh v (hv : 90 < v) (hv' : v < 256) :
        asciiLower (ofNat v) = ofNat v := by
      rw [asciiLower_ofNat hv', if_neg (by omega)]
    split
    · simp only [map_cons, map_nil]
      rw [hhigh _ (by omega) (by omega), hhigh _ (by omega) (by omega)]
    split
    · simp only [map_cons, map_nil]
      rw [hhigh _ (by omega) (by omega), hhigh _ (by omega) (by omega),
        hhigh _ (by omega) (by omega)]
    · simp only [map_cons, map_nil]
      rw [hhigh _ (by omega) (by omega), hhigh _ (by omega) (by omega),
        hhigh _ (by omega) (by omega), hhigh _ (by omega) (by omega)]

/-- The bytes of a lowered text. -/
lemma absenceBytes_orderKind :
    absenceBytes orderKind (String.ofList l) = keyBytes (String.ofList (l.map Char.toLower)) := by
  unfold absenceBytes keyBytes
  simp only [if_true, String.toList_ofList]
  induction l with
  | nil => rfl
  | cons c l ih =>
    rw [flatMap_cons, map_append, map_cons, flatMap_cons, ih, map_asciiLower_utf8EncodeChar]

/-! ## Normalised order ids -/

lemma toLower_toLower : c.toLower.toLower = c.toLower := by
  have houter := toNat_toLower c.toLower
  have hinner := toNat_toLower c
  refine Char.ext (UInt32.toNat_inj.1 ?_)
  omega

lemma isWhitespace_toLower : isWhitespace c.toLower = isWhitespace c := by
  have hplain x (h : 65 ≤ x.toNat ∧ x.toNat ≤ 122) : isWhitespace x = false := by
    simp only [isWhitespace, Bool.or_eq_false_iff, Bool.and_eq_false_iff,
      decide_eq_false_iff_not, beq_eq_false_iff_ne]
    omega
  rcases toNat_toLower c with ⟨hlow, hhigh, heq⟩ | ⟨hne, heq⟩
  · have hbounds : 65 ≤ c.toLower.toNat ∧ c.toLower.toNat ≤ 122 := by
      show 65 ≤ c.toLower.val.toNat ∧ c.toLower.val.toNat ≤ 122
      omega
    rw [hplain c ⟨hlow, Nat.le_trans hhigh (by decide)⟩, hplain _ hbounds]
  · rw [Char.ext (UInt32.toNat_inj.1 heq)]

lemma trim_map_toLower : trim (l.map Char.toLower) = (trim l).map Char.toLower := by
  have hcomp : isWhitespace ∘ Char.toLower = isWhitespace := funext isWhitespace_toLower
  unfold trim
  rw [dropWhile_map]
  unfold rdropWhile
  rw [← map_reverse, dropWhile_map, hcomp, ← map_reverse]

/-- The text behind a leading `0x` or `0X`. -/
def stripHex (l : List Char) : List Char :=
  ((l.dropPrefix? ['0', 'x']).or (l.dropPrefix? ['0', 'X'])).getD l

lemma orderIdView_eq : orderIdView id = stripHex (trim id.toList) := rfl

lemma stripHex_cons_cons (a b : Char) (l : List Char) :
    stripHex (a :: b :: l) = if a = '0' ∧ (b = 'x' ∨ b = 'X') then l else a :: b :: l := by
  have hmark x : (a :: b :: l).dropPrefix? ['0', x] =
      if a = '0' ∧ b = x then some l else none := by
    unfold dropPrefix?
    by_cases ha : a = '0'
    · by_cases hb : b = x
      · simp [ha, hb, dropPrefix?]
      · simp [ha, dropPrefix?]
    · simp [ha]
  unfold stripHex
  rw [hmark, hmark]
  by_cases ha : a = '0' <;> by_cases hx : b = 'x' <;> by_cases hX : b = 'X' <;> simp [ha, hx, hX]

lemma toLower_eq_zero_iff : c.toLower = '0' ↔ c = '0' := by
  have hlower := toNat_toLower c
  have hval x : x = '0' ↔ x.val.toNat = 48 :=
    ⟨fun h => by rw [h]; rfl, fun h => Char.ext (UInt32.toNat_inj.1 h)⟩
  rw [hval, hval]
  omega

lemma toLower_eq_x_iff : (c.toLower = 'x' ∨ c.toLower = 'X') ↔ (c = 'x' ∨ c = 'X') := by
  have hlower := toNat_toLower c
  have hx x : x = 'x' ↔ x.val.toNat = 120 :=
    ⟨fun h => by rw [h]; rfl, fun h => Char.ext (UInt32.toNat_inj.1 h)⟩
  have hX x : x = 'X' ↔ x.val.toNat = 88 :=
    ⟨fun h => by rw [h]; rfl, fun h => Char.ext (UInt32.toNat_inj.1 h)⟩
  rw [hx, hX, hx, hX]
  omega

/-- Stripping looks at the text without its case. -/
lemma stripHex_map_toLower :
    (stripHex (l.map Char.toLower)).map Char.toLower = (stripHex l).map Char.toLower := by
  have hidem (l : List Char) : (l.map Char.toLower).map Char.toLower = l.map Char.toLower := by
    rw [map_map]
    exact map_congr_left fun c _ => toLower_toLower c
  match l with
  | [] => rfl
  | [a] =>
    have hone c : stripHex [c] = [c] := by
      unfold stripHex
      simp [dropPrefix?]
    rw [map_cons, map_nil, hone, hone]
    exact hidem [a]
  | a :: b :: l =>
    rw [map_cons, map_cons, stripHex_cons_cons, stripHex_cons_cons]
    simp only [toLower_eq_zero_iff, toLower_eq_x_iff]
    split
    · exact hidem l
    · exact hidem (a :: b :: l)

/-- Normalising an order id, or only stripping it, before it is normalised makes no difference. -/
lemma normalizeOrderId_view :
    normalizeOrderId (String.ofList (orderIdView id)) = normalizeOrderId (normalizeOrderId id) := by
  unfold normalizeOrderId
  rw [orderIdView_eq (String.ofList ((orderIdView id).map Char.toLower)),
    orderIdView_eq (String.ofList (orderIdView id)), String.toList_ofList, String.toList_ofList,
    trim_map_toLower, stripHex_map_toLower]

/-! ## Hints and stored keys -/

/-- The bytes of a hint are those of the stored key. -/
lemma absenceBytes_absenceKey :
    absenceBytes kind (absenceKey kind ident) = keyBytes (storedKey kind ident) := by
  unfold absenceKey storedKey
  split
  · next h =>
    rw [h, absenceBytes_orderKind]
    rfl
  · next h => simp only [absenceBytes, if_neg h, map_id']

/-- The filter bits of an order depend on its normalised id. -/
lemma filterIndices_orderKind {a b : String} (h : normalizeOrderId a = normalizeOrderId b) :
    filterIndices orderKind a = filterIndices orderKind b := by
  have hbytes : absenceBytes orderKind (String.ofList (orderIdView a)) =
      absenceBytes orderKind (String.ofList (orderIdView b)) := by
    rw [absenceBytes_orderKind, absenceBytes_orderKind]
    exact congrArg keyBytes h
  unfold filterIndices
  simp only [if_true, hbytes]

/-- The filter bits of a hint are those of the stored key. -/
lemma filterIndices_absenceKey :
    filterIndices kind (absenceKey kind ident) =
      filterIndices kind (storedKey kind ident) := by
  unfold absenceKey storedKey
  split
  · next h =>
    rw [h]
    exact filterIndices_orderKind (normalizeOrderId_view ident)
  · rfl

lemma absenceKey_eq_empty_iff : absenceKey kind ident = "" ↔ storedKey kind ident = "" := by
  have hempty l : String.ofList l = "" ↔ l = [] :=
    ⟨fun h => String.ofList_injective h, fun h => by rw [h]⟩
  unfold absenceKey storedKey
  split
  · unfold normalizeOrderId
    rw [hempty, hempty, map_eq_nil_iff]
  · rfl

end HexAgent.History
