import MarkupTemplate.Proofs.CompiledText
import MarkupTemplate.Proofs.Outcome
import MarkupTemplate.Text.Encoding

/-!
# Encodings of files and what they cover

An encoding has bytes for exactly the texts whose characters it covers, every text it decodes is one of
them, and the bytes it has for a text decode to that text. Reading a file also unifies its line ends,
which changes nothing in a text without carriage returns and leaves none in any other.
-/

namespace MarkupTemplate

namespace Encoding

def covers : Encoding → Char → Bool
  | utf8, _ => true
  | latin1, c => c.toNat < 256
  | ascii, c => c.toNat < 128

theorem isSome_encodeBelow_iff {limit : Nat} {s : Text} :
    (encodeBelow limit s).isSome = true ↔ ∀ c ∈ s, c.toNat < limit := by
  induction s with
  | nil => simp [encodeBelow]
  | cons c s ih =>
    rw [encodeBelow, List.forall_mem_cons, ← ih]
    split_ifs with hc <;> simp [hc]

theorem isSome_encode?_iff {encoding : Encoding} {s : Text} :
    (encoding.encode? s).isSome = true ↔ ∀ c ∈ s, encoding.covers c = true := by
  cases encoding with
  | utf8 => simp [encode?, covers]
  | latin1 => simp [encode?, covers, isSome_encodeBelow_iff]
  | ascii => simp [encode?, covers, isSome_encodeBelow_iff]

theorem covers_of_isOwnChar (encoding : Encoding) {c : Char} (h : Text.isOwnChar c = true) :
    encoding.covers c = true := by
  have hlt : c.toNat < 128 := by
    simp only [Text.isOwnChar, Bool.or_eq_true, Bool.and_eq_true, decide_eq_true_eq, beq_iff_eq] at h
    rcases h with rfl | ⟨-, hu⟩
    · decide
    · exact Nat.lt_of_le_of_lt (show c.toNat ≤ '~'.toNat from hu) (by decide)
  cases encoding with
  | utf8 => rfl
  | latin1 => exact decide_eq_true (by omega)
  | ascii => exact decide_eq_true hlt

theorem toNat_ofNat_of_lt {n : Nat} (h : n < 256) : (Char.ofNat n).toNat = n := by
  have hvalid : n.isValidChar := .inl (by omega)
  have hchar : Char.ofNat n = Char.ofNatAux n hvalid := dif_pos hvalid
  rw [hchar]
  rfl

theorem forall_lt_of_decodeAscii {position : Nat} {content : Bytes} {s : Text}
    (h : decodeAscii position content = .ok s) : ∀ c ∈ s, c.toNat < 128 := by
  induction content generalizing position s with
  | nil =>
    cases h
    exact fun c hc => absurd hc List.not_mem_nil
  | cons b content ih =>
    rw [decodeAscii] at h
    split_ifs at h with hb
    obtain ⟨rest, hrest, rfl⟩ := map_eq_ok_iff.1 h
    have hlt : b.toNat < 128 := UInt8.lt_iff_toNat_lt.1 hb
    refine List.forall_mem_cons.2 ⟨?_, ih hrest⟩
    rwa [toNat_ofNat_of_lt (by omega)]

theorem covers_of_decode {encoding : Encoding} {content : Bytes} {s : Text}
    (h : encoding.decode content = .ok s) : ∀ c ∈ s, encoding.covers c = true := by
  cases encoding with
  | utf8 => exact fun _ _ => rfl
  | latin1 =>
    cases h
    intro c hc
    obtain ⟨b, -, rfl⟩ := List.mem_map.1 hc
    have hb := b.toNat_lt
    exact decide_eq_true (by rwa [toNat_ofNat_of_lt hb])
  | ascii => exact fun c hc => decide_eq_true (forall_lt_of_decodeAscii h c hc)

theorem decodeLatin1_of_encodeBelow {s : Text} {content : Bytes} (h : encodeBelow 256 s = some content) :
    decodeLatin1 content = s := by
  induction s generalizing content with
  | nil =>
    cases h
    rfl
  | cons c s ih =>
    rw [encodeBelow] at h
    split_ifs at h with hc
    obtain ⟨rest, hrest, rfl⟩ := Option.map_eq_some_iff.1 h
    have hbyte : Char.ofNat (UInt8.ofNat c.toNat).toNat = c := by
      rw [UInt8.toNat_ofNat_of_lt' hc, Char.ofNat_toNat]
    exact congrArg₂ List.cons hbyte (ih hrest)

theorem decodeAscii_of_encodeBelow {s : Text} {content : Bytes} (h : encodeBelow 128 s = some content)
    (position : Nat) : decodeAscii position content = .ok s := by
  induction s generalizing content position with
  | nil =>
    cases h
    rfl
  | cons c s ih =>
    rw [encodeBelow] at h
    split_ifs at h with hc
    obtain ⟨rest, hrest, rfl⟩ := Option.map_eq_some_iff.1 h
    have hbyte : (UInt8.ofNat c.toNat).toNat = c.toNat :=
      UInt8.toNat_ofNat_of_lt' (Nat.lt_trans hc (by decide))
    have hlt : UInt8.ofNat c.toNat < 0x80 := by
      rw [UInt8.lt_iff_toNat_lt, hbyte]
      exact hc
    rw [decodeAscii, if_pos hlt, ih hrest, hbyte, Char.ofNat_toNat]
    rfl

section Utf8

variable {a b c d : UInt8} {position : Nat} {s : Bytes}

def Follows (b : UInt8) : Prop :=
  128 ≤ b.toNat ∧ b.toNat < 192

theorem Follows.isTail (h : Follows b) : isTail b = true := by
  simp only [Encoding.isTail, Bool.and_eq_true, decide_eq_true_eq]
  exact ⟨UInt8.le_iff_toNat_le.2 h.1, UInt8.lt_iff_toNat_lt.2 h.2⟩

structure FollowsLead (a b : UInt8) : Prop where
  follows : Follows b
  notOverlong : (a.toNat = 224 → 160 ≤ b.toNat) ∧ (a.toNat = 240 → 144 ≤ b.toNat)
  notBeyond : (a.toNat = 237 → b.toNat < 160) ∧ (a.toNat = 244 → b.toNat < 144)

theorem FollowsLead.isSecond (h : FollowsLead a b) : isSecond a b = true := by
  obtain ⟨⟨hl, hu⟩, ⟨h224, h240⟩, h237, h244⟩ := h
  simp only [Encoding.isSecond, Bool.and_eq_true, decide_eq_true_eq, UInt8.le_iff_toNat_le]
  constructor
  · split_ifs with ha ha'
    · exact h224 (by rw [ha]; rfl)
    · exact h240 (by rw [ha']; rfl)
    · exact hl
  · split_ifs with ha ha'
    · exact Nat.le_of_lt_succ (h237 (by rw [ha]; rfl))
    · exact Nat.le_of_lt_succ (h244 (by rw [ha']; rfl))
    · exact Nat.le_of_lt_succ hu

theorem decodeUtf8_one (h : a.toNat < 128) :
    decodeUtf8 position (a :: s) =
      (decodeUtf8 (position + 1) s).map (Char.ofNat a.toNat :: ·) := by
  have ha : a < 0x80 := UInt8.lt_iff_toNat_lt.2 h
  rw [decodeUtf8.eq_def]
  dsimp only
  rw [if_pos ha]

theorem decodeUtf8_lead (hl : 194 ≤ a.toNat) (hu : a.toNat ≤ 244) :
    ¬ a < 0x80 ∧ ¬ (decide (a < 0xC2) || decide (0xF4 < a)) = true := by
  simp only [Bool.or_eq_true, decide_eq_true_eq, UInt8.lt_iff_toNat_lt]
  change ¬ a.toNat < 128 ∧ ¬ (a.toNat < 194 ∨ 244 < a.toNat)
  omega

theorem decodeUtf8_two (hl : 194 ≤ a.toNat) (hu : a.toNat < 224) (hb : Follows b) :
    decodeUtf8 position (a :: b :: s) =
      (decodeUtf8 (position + 2) s).map (Char.ofNat (a.toNat % 32 * 64 + tailBits b) :: ·) := by
  obtain ⟨hone, herror⟩ := decodeUtf8_lead hl (by omega)
  have hwidth : a < 0xE0 := UInt8.lt_iff_toNat_lt.2 hu
  rw [decodeUtf8.eq_def]
  dsimp only
  rw [if_neg hone, if_neg herror]
  simp [hwidth, hb.isTail]

theorem decodeUtf8_three (hl : 224 ≤ a.toNat) (hu : a.toNat < 240) (hb : FollowsLead a b)
    (hc : Follows c) :
    decodeUtf8 position (a :: b :: c :: s) =
      (decodeUtf8 (position + 3) s).map
        (Char.ofNat ((a.toNat % 16 * 64 + tailBits b) * 64 + tailBits c) :: ·) := by
  obtain ⟨hone, herror⟩ := decodeUtf8_lead (by omega : 194 ≤ a.toNat) (by omega)
  have htwo : ¬ a < 0xE0 := fun h => Nat.not_lt.2 hl (UInt8.lt_iff_toNat_lt.1 h)
  have hwidth : a < 0xF0 := UInt8.lt_iff_toNat_lt.2 hu
  rw [decodeUtf8.eq_def]
  dsimp only
  rw [if_neg hone, if_neg herror]
  simp [htwo, hwidth, hb.isSecond, hc.isTail]

theorem decodeUtf8_four (hl : 240 ≤ a.toNat) (hu : a.toNat ≤ 244) (hb : FollowsLead a b)
    (hc : Follows c) (hd : Follows d) :
    decodeUtf8 position (a :: b :: c :: d :: s) =
      (decodeUtf8 (position + 4) s).map
        (Char.ofNat (((a.toNat % 8 * 64 + tailBits b) * 64 + tailBits c) * 64 + tailBits d) :: ·) := by
  obtain ⟨hone, herror⟩ := decodeUtf8_lead (by omega : 194 ≤ a.toNat) hu
  have htwo : ¬ a < 0xE0 := fun h => Nat.not_lt.2 (by omega : 224 ≤ a.toNat) (UInt8.lt_iff_toNat_lt.1 h)
  have hthree : ¬ a < 0xF0 := fun h => Nat.not_lt.2 hl (UInt8.lt_iff_toNat_lt.1 h)
  rw [decodeUtf8.eq_def]
  dsimp only
  rw [if_neg hone, if_neg herror]
  simp [htwo, hthree, hb.isSecond, hc.isTail, hd.isTail]

theorem decodeUtf8_encodeChar (x : Char) (s : Bytes) (position : Nat) :
    ∃ next, decodeUtf8 position (String.utf8EncodeChar x ++ s) = (decodeUtf8 next s).map (x :: ·) := by
  obtain ⟨n, hn⟩ : ∃ n, n = x.val.toNat := ⟨_, rfl⟩
  have hbyte : ∀ {k : Nat}, k < 256 → (UInt8.ofNat k).toNat = k := UInt8.toNat_ofNat_of_lt'
  have hvalid : n < 55296 ∨ 57343 < n ∧ n < 1114112 := hn ▸ x.valid
  have hchar : ∀ {m : Nat}, m = n → Char.ofNat m = x := by
    intro m hm
    rw [hm, hn]
    exact Char.ofNat_toNat x
  have hbits : ∀ {k : Nat}, k < 64 → tailBits (UInt8.ofNat (k + 128)) = k := by
    intro k hk
    rw [tailBits, hbyte (by omega)]
    omega
  have hfollows : ∀ {k : Nat}, k < 64 → Follows (UInt8.ofNat (k + 128)) := by
    intro k hk
    rw [Follows, hbyte (by omega)]
    omega
  -- one case for each length of a sequence
  unfold String.utf8EncodeChar
  dsimp only
  rw [← hn]
  split_ifs with h1 h2 h3 <;> simp only [List.cons_append, List.nil_append]
  · have ha : (UInt8.ofNat n).toNat = n := hbyte (by omega)
    exact ⟨position + 1, (decodeUtf8_one (by omega)).trans (by rw [hchar ha])⟩
  · have ha : (UInt8.ofNat (n / 64 % 32 + 192)).toNat = n / 64 % 32 + 192 := hbyte (by omega)
    refine ⟨position + 2, (decodeUtf8_two (by omega) (by omega) (hfollows (by omega))).trans ?_⟩
    rw [ha, hbits (by omega), hchar (by omega)]
  · have ha : (UInt8.ofNat (n / 4096 % 16 + 224)).toNat = n / 4096 % 16 + 224 :=
      hbyte (by omega)
    have hb : (UInt8.ofNat (n / 64 % 64 + 128)).toNat = n / 64 % 64 + 128 := hbyte (by omega)
    have hlead : FollowsLead (UInt8.ofNat (n / 4096 % 16 + 224)) (UInt8.ofNat (n / 64 % 64 + 128)) := by
      refine ⟨hfollows (by omega), ?_, ?_⟩ <;> rw [ha, hb] <;> omega
    refine ⟨position + 3, (decodeUtf8_three (by omega) (by omega) hlead (hfollows (by omega))).trans ?_⟩
    rw [ha, hbits (by omega), hbits (by omega), hchar (by omega)]
  · have ha : (UInt8.ofNat (n / 262144 % 8 + 240)).toNat = n / 262144 % 8 + 240 :=
      hbyte (by omega)
    have hb : (UInt8.ofNat (n / 4096 % 64 + 128)).toNat = n / 4096 % 64 + 128 :=
      hbyte (by omega)
    have hlead : FollowsLead (UInt8.ofNat (n / 262144 % 8 + 240))
        (UInt8.ofNat (n / 4096 % 64 + 128)) := by
      refine ⟨hfollows (by omega), ?_, ?_⟩ <;> rw [ha, hb] <;> omega
    refine ⟨position + 4, (decodeUtf8_four (by omega) (by omega) hlead (hfollows (by omega))
      (hfollows (by omega))).trans ?_⟩
    rw [ha, hbits (by omega), hbits (by omega), hbits (by omega), hchar (by omega)]

end Utf8

theorem decodeUtf8_encode (s : Text) (position : Nat) :
    decodeUtf8 position (s.flatMap String.utf8EncodeChar) = .ok s := by
  induction s generalizing position with
  | nil => rfl
  | cons c s ih =>
    obtain ⟨next, hnext⟩ := decodeUtf8_encodeChar c (s.flatMap String.utf8EncodeChar) position
    rw [List.flatMap_cons, hnext, ih]
    rfl

/-- The bytes that an encoding has for a text decode to that text. -/
theorem decode_of_encode? {encoding : Encoding} {s : Text} {content : Bytes}
    (h : encoding.encode? s = some content) : encoding.decode content = .ok s := by
  cases encoding with
  | utf8 =>
    cases h
    exact decodeUtf8_encode s 0
  | latin1 => exact congrArg Except.ok (decodeLatin1_of_encodeBelow h)
  | ascii => exact decodeAscii_of_encodeBelow h 0

end Encoding

namespace Text

theorem mem_unifyLineEnds {s : Text} {c : Char} (h : c ∈ unifyLineEnds s) :
    c ≠ '\r' ∧ (c ∈ s ∨ c = '\n') := by
  fun_induction unifyLineEnds s with
  | case1 => cases h
  | case2 s ih => grind
  | case3 s _ ih => grind
  | case4 d s hd _ ih => grind

theorem unifyLineEnds_of_not_mem {s : Text} (h : '\r' ∉ s) : unifyLineEnds s = s := by
  fun_induction unifyLineEnds s with
  | case1 => rfl
  | case2 s ih => simp at h
  | case3 s _ ih => simp at h
  | case4 d s hd _ ih => rw [ih (List.not_mem_of_not_mem_cons h)]

end Text

end MarkupTemplate
