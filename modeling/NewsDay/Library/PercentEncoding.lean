import Mathlib.Data.List.Basic

/-! # Percent-encoding

A text is encoded character by character: an allowed character stays, any other
one is replaced by a triple for each byte of its UTF-8 form. What comes out is
built of allowed characters and of triples only.
-/

namespace PercentEncoding

def hexDigit (value : Nat) : Char :=
  if value < 10 then Char.ofNat (48 + value) else Char.ofNat (55 + value)

def isHexDigit (char : Char) : Bool :=
  ('0' ≤ char && char ≤ '9') || ('A' ≤ char && char ≤ 'F') || ('a' ≤ char && char ≤ 'f')

def encodeByte (byte : UInt8) : List Char :=
  ['%', hexDigit (byte.toNat / 16), hexDigit (byte.toNat % 16)]

variable (allowed : Char → Bool)

def encodeChar (char : Char) : List Char :=
  if allowed char then [char] else (String.utf8EncodeChar char).flatMap encodeByte

def encode (text : String) : String := String.ofList (text.toList.flatMap (encodeChar allowed))

/-- Text made of allowed characters and percent triples. -/
def isEncoded : List Char → Bool
  | [] => true
  | '%' :: high :: low :: rest => isHexDigit high && isHexDigit low && isEncoded rest
  | char :: rest => allowed char && isEncoded rest

theorem isHexDigit_hexDigit {value : Nat} (hvalue : value < 16) :
    isHexDigit (hexDigit value) = true := by
  revert value
  decide

variable {allowed}

/-- What does not begin with a triple is read by its first character. -/
theorem isEncoded_cons_of_short {char : Char} (rest : List Char)
    (hshort : ∀ high low tail, char = '%' → rest = high :: low :: tail → False) :
    isEncoded allowed (char :: rest) = (allowed char && isEncoded allowed rest) := by
  rw [isEncoded]
  exact hshort

theorem isEncoded_cons {char : Char} (rest : List Char) (hchar : char ≠ '%') :
    isEncoded allowed (char :: rest) = (allowed char && isEncoded allowed rest) :=
  isEncoded_cons_of_short rest fun _ _ _ hpercent _ => hchar hpercent

theorem isEncoded_append (hpercent : allowed '%' = false) {first second : List Char}
    (hfirst : isEncoded allowed first = true) (hsecond : isEncoded allowed second = true) :
    isEncoded allowed (first ++ second) = true := by
  induction first using isEncoded.induct with
  | case1 => exact hsecond
  | case2 high low rest ih =>
      simp only [isEncoded, Bool.and_eq_true] at hfirst
      simp only [List.cons_append, isEncoded, Bool.and_eq_true]
      exact ⟨hfirst.1, ih hfirst.2⟩
  | case3 char rest hshort ih =>
      rw [isEncoded_cons_of_short rest hshort, Bool.and_eq_true] at hfirst
      have hchar : char ≠ '%' := by
        rintro rfl
        rw [hpercent] at hfirst
        exact absurd hfirst.1 Bool.false_ne_true
      rw [List.cons_append, isEncoded_cons _ hchar, Bool.and_eq_true]
      exact ⟨hfirst.1, ih hfirst.2⟩

/-- A text of allowed characters is encoded as it stands. -/
theorem isEncoded_of_allowed (hpercent : allowed '%' = false) {text : List Char}
    (hallowed : ∀ char ∈ text, allowed char = true) : isEncoded allowed text = true := by
  induction text with
  | nil => rfl
  | cons char rest ih =>
      have hchar : char ≠ '%' := by
        rintro rfl
        rw [hallowed _ List.mem_cons_self] at hpercent
        exact Bool.noConfusion hpercent
      rw [isEncoded_cons _ hchar, hallowed _ List.mem_cons_self, Bool.true_and]
      exact ih fun other hother => hallowed other (List.mem_cons_of_mem _ hother)

/-- The characters that encoded text can consist of. -/
theorem mem_of_isEncoded {text : List Char} (hencoded : isEncoded allowed text = true) :
    ∀ char ∈ text, allowed char = true ∨ char = '%' ∨ isHexDigit char = true := by
  induction text using isEncoded.induct with
  | case1 => simp
  | case2 high low rest ih =>
      simp only [isEncoded, Bool.and_eq_true] at hencoded
      obtain ⟨⟨hhigh, hlow⟩, hrest⟩ := hencoded
      rw [List.forall_mem_cons, List.forall_mem_cons, List.forall_mem_cons]
      exact ⟨.inr (.inl rfl), .inr (.inr hhigh), .inr (.inr hlow), ih hrest⟩
  | case3 char rest hshort ih =>
      rw [isEncoded_cons_of_short rest hshort, Bool.and_eq_true] at hencoded
      rw [List.forall_mem_cons]
      exact ⟨.inl hencoded.1, ih hencoded.2⟩

theorem isEncoded_encodeByte (byte : UInt8) : isEncoded allowed (encodeByte byte) = true := by
  have hbyte : byte.toNat < 256 := byte.toNat_lt
  simp only [encodeByte, isEncoded, Bool.and_eq_true, and_true]
  exact ⟨isHexDigit_hexDigit (by omega), isHexDigit_hexDigit (by omega)⟩

theorem isEncoded_flatMap {Item : Type*} (hpercent : allowed '%' = false)
    (encodeItem : Item → List Char) (hitem : ∀ item, isEncoded allowed (encodeItem item) = true)
    (items : List Item) : isEncoded allowed (items.flatMap encodeItem) = true := by
  induction items with
  | nil => rfl
  | cons item rest ih =>
      rw [List.flatMap_cons]
      exact isEncoded_append hpercent (hitem item) ih

/-- Whatever text is encoded, the result is encoded text. -/
theorem isEncoded_encode (hpercent : allowed '%' = false) (text : String) :
    isEncoded allowed (encode allowed text).toList = true := by
  rw [encode, String.toList_ofList]
  refine isEncoded_flatMap hpercent _ ?_ _
  intro char
  unfold encodeChar
  split
  next hallowed =>
    exact isEncoded_of_allowed hpercent (by simpa using hallowed)
  next =>
    exact isEncoded_flatMap hpercent encodeByte isEncoded_encodeByte _

/-! ## Decoding -/

def hexValue (char : Char) : Option Nat :=
  if '0' ≤ char ∧ char ≤ '9' then some (char.toNat - 48)
  else if 'A' ≤ char ∧ char ≤ 'F' then some (char.toNat - 55)
  else if 'a' ≤ char ∧ char ≤ 'f' then some (char.toNat - 87)
  else none

/-- The bytes that encoded text stands for, unless it has a `%` without two
hexadecimal digits. -/
def decodeBytes : List Char → Option (List UInt8)
  | [] => some []
  | '%' :: high :: low :: rest =>
      match hexValue high, hexValue low with
      | some high, some low => (decodeBytes rest).map (UInt8.ofNat (16 * high + low) :: ·)
      | _, _ => none
  | char :: rest =>
      if char = '%' then none else (decodeBytes rest).map (String.utf8EncodeChar char ++ ·)

/-- The text that encoded text stands for. -/
def decode (text : String) : Option String :=
  (decodeBytes text.toList).bind fun bytes => String.fromUTF8? bytes.toByteArray

theorem hexValue_hexDigit {value : Nat} (hvalue : value < 16) :
    hexValue (hexDigit value) = some value := by
  revert value
  decide

theorem decodeBytes_cons {char : Char} (rest : List Char) (hchar : char ≠ '%') :
    decodeBytes (char :: rest) = (decodeBytes rest).map (String.utf8EncodeChar char ++ ·) := by
  rw [decodeBytes, if_neg hchar]
  intro high low tail hpercent _
  exact hchar hpercent

theorem decodeBytes_encodeByte (byte : UInt8) (rest : List Char) :
    decodeBytes (encodeByte byte ++ rest) = (decodeBytes rest).map (byte :: ·) := by
  have hbyte : byte.toNat < 256 := byte.toNat_lt
  have hvalue : 16 * (byte.toNat / 16) + byte.toNat % 16 = byte.toNat := Nat.div_add_mod ..
  simp only [encodeByte, List.cons_append, List.nil_append, decodeBytes]
  rw [hexValue_hexDigit (by omega), hexValue_hexDigit (by omega)]
  simp only [hvalue, UInt8.ofNat_toNat]

theorem decodeBytes_encodeBytes (bytes : List UInt8) (rest : List Char) :
    decodeBytes (bytes.flatMap encodeByte ++ rest) = (decodeBytes rest).map (bytes ++ ·) := by
  induction bytes with
  | nil => simp
  | cons byte bytes ih =>
      rw [List.flatMap_cons, List.append_assoc, decodeBytes_encodeByte, ih, Option.map_map]
      rfl

theorem decodeBytes_encodeChar (hpercent : allowed '%' = false) (char : Char) (rest : List Char) :
    decodeBytes (encodeChar allowed char ++ rest) =
      (decodeBytes rest).map (String.utf8EncodeChar char ++ ·) := by
  unfold encodeChar
  split
  next hallowed =>
    have hchar : char ≠ '%' := by
      rintro rfl
      rw [hpercent] at hallowed
      exact Bool.false_ne_true hallowed
    exact decodeBytes_cons rest hchar
  next => exact decodeBytes_encodeBytes _ rest

theorem decodeBytes_encode (hpercent : allowed '%' = false) (text : List Char) :
    decodeBytes (text.flatMap (encodeChar allowed)) =
      some (text.flatMap String.utf8EncodeChar) := by
  induction text with
  | nil => rfl
  | cons char rest ih =>
      rw [List.flatMap_cons, decodeBytes_encodeChar hpercent, ih]
      rfl

/-- The bytes of a text are read as that text. -/
theorem fromUTF8?_utf8Encode (text : String) :
    String.fromUTF8? (text.toList.flatMap String.utf8EncodeChar).toByteArray = some text := by
  have hbytes : (text.toList.flatMap String.utf8EncodeChar).toByteArray = text.toByteArray :=
    String.utf8Encode_toList
  rw [hbytes, String.fromUTF8?, dif_pos text.isValidUTF8]
  rfl

/-- Decoding inverts encoding. -/
theorem decode_encode (hpercent : allowed '%' = false) (text : String) :
    decode (encode allowed text) = some text := by
  rw [decode, encode, String.toList_ofList, decodeBytes_encode hpercent, Option.bind_some,
    fromUTF8?_utf8Encode]

/-- Text without a `%` stands for itself. -/
theorem decode_of_plain {text : String} (hplain : '%' ∉ text.toList) : decode text = some text := by
  have hbytes : ∀ chars : List Char, '%' ∉ chars →
      decodeBytes chars = some (chars.flatMap String.utf8EncodeChar) := by
    intro chars hchars
    induction chars with
    | nil => rfl
    | cons char rest ih =>
        obtain ⟨hchar, hrest⟩ := not_or.mp (mt List.mem_cons.mpr hchars)
        rw [decodeBytes_cons rest (Ne.symm hchar), ih hrest]
        rfl
  rw [decode, hbytes _ hplain, Option.bind_some, fromUTF8?_utf8Encode]

/-! ## Characters of encoded text -/

theorem mem_encodeByte {char : Char} {byte : UInt8} (hmem : char ∈ encodeByte byte) :
    char = '%' ∨ isHexDigit char = true := by
  have hbyte : byte.toNat < 256 := byte.toNat_lt
  simp only [encodeByte, List.mem_cons, List.not_mem_nil, or_false] at hmem
  rcases hmem with rfl | rfl | rfl
  · exact .inl rfl
  · exact .inr (isHexDigit_hexDigit (by omega))
  · exact .inr (isHexDigit_hexDigit (by omega))

/-- A character that no triple contains is in the encoded text when it is in
the text and allowed. -/
theorem mem_encode_iff {char : Char} (hpercent : char ≠ '%') (hdigit : isHexDigit char = false)
    (text : String) :
    char ∈ (encode allowed text).toList ↔ char ∈ text.toList ∧ allowed char = true := by
  rw [encode, String.toList_ofList, List.mem_flatMap]
  constructor
  · rintro ⟨source, hsource, hmem⟩
    unfold encodeChar at hmem
    split at hmem
    next hallowed =>
      obtain rfl := List.mem_singleton.mp hmem
      exact ⟨hsource, hallowed⟩
    next =>
      obtain ⟨byte, -, hbyte⟩ := List.mem_flatMap.mp hmem
      rcases mem_encodeByte hbyte with hsame | hhex
      · exact absurd hsame hpercent
      · exact absurd (hhex.symm.trans hdigit) (by simp)
  · rintro ⟨hmem, hallowed⟩
    exact ⟨char, hmem, by simp [encodeChar, hallowed]⟩

end PercentEncoding
