/-
  AddonAudit.Proofs.Text.Utf8 — what is written as UTF-8 is read back.

  A character takes one to four bytes.  In each of the four cases the start byte tells how many
  follow, the bytes that follow are in their ranges (overlong forms and surrogates do not arise),
  and their payloads make up the code point.
-/
import AddonAudit.Text.Utf8
import Mathlib.Data.List.Basic

namespace AddonAudit.Text

/-! ## §1. The bytes of a character. -/

section
variable (b : UInt8) (n k code : Nat) (bs : List UInt8)

theorem readContinuations_done (h : ¬ k < n) :
    readContinuations b n k code bs = .char (Char.ofNat code) := by
  rw [readContinuations.eq_def, if_neg h]

theorem readContinuations_first {c : UInt8} (hn : 0 < n) (hc : (secondRange b).1 ≤ c ∧
    c ≤ (secondRange b).2) : readContinuations b n 0 code (c :: bs) =
    readContinuations b n 1 (code * 64 + c.toNat % 64) bs := by
  rw [readContinuations, if_pos hn]
  simp only [beq_self_eq_true, if_true]
  exact if_pos (by rw [Bool.and_eq_true, decide_eq_true_eq, decide_eq_true_eq]; exact hc)

theorem readContinuations_next {c : UInt8} (hk : k + 1 < n) (hc : 0x80 ≤ c ∧ c ≤ 0xbf) :
    readContinuations b n (k + 1) code (c :: bs) = readContinuations b n (k + 2)
    (code * 64 + c.toNat % 64) bs := by
  rw [readContinuations, if_pos hk]
  exact if_pos (by simpa using hc)

end

theorem toNat_le {b c : UInt8} (h : b.toNat ≤ c.toNat) : b ≤ c := UInt8.le_iff_toNat_le.mpr h

/-- The range of the second byte, by what the first one is. -/
theorem secondRange_le {b c : UInt8} (hlo : 0x80 ≤ c.toNat) (hhi : c.toNat ≤ 0xbf)
    (he0 : b.toNat = 0xe0 → 0xa0 ≤ c.toNat) (hed : b.toNat = 0xed → c.toNat ≤ 0x9f)
    (hf0 : b.toNat = 0xf0 → 0x90 ≤ c.toNat) (hf4 : b.toNat = 0xf4 → c.toNat ≤ 0x8f) :
    (secondRange b).1 ≤ c ∧ c ≤ (secondRange b).2 := by
  unfold secondRange
  split
  · rename_i hb
    exact ⟨toNat_le (he0 (by rw [beq_iff_eq.mp hb]; rfl)), toNat_le hhi⟩
  · split
    · rename_i hb
      exact ⟨toNat_le hlo, toNat_le (hed (by rw [beq_iff_eq.mp hb]; rfl))⟩
    · split
      · rename_i hb
        exact ⟨toNat_le (hf0 (by rw [beq_iff_eq.mp hb]; rfl)), toNat_le hhi⟩
      · split
        · rename_i hb
          exact ⟨toNat_le hlo, toNat_le (hf4 (by rw [beq_iff_eq.mp hb]; rfl))⟩
        · exact ⟨toNat_le hlo, toNat_le hhi⟩

/-- How many bytes follow a start byte, by its value. -/
theorem continuationCount?_eq {b : UInt8} : continuationCount? b = if b.toNat < 0x80 then some 0
      else if 0xc2 ≤ b.toNat ∧ b.toNat ≤ 0xdf then some 1 else if 0xe0 ≤ b.toNat ∧
      b.toNat ≤ 0xef then some 2
      else if 0xf0 ≤ b.toNat ∧ b.toNat ≤ 0xf4 then some 3 else none := by
  unfold continuationCount?
  simp only [UInt8.lt_iff_toNat_lt, UInt8.le_iff_toNat_le, Bool.and_eq_true, decide_eq_true_eq,
    UInt8.reduceToNat]

/-- Whether a start byte and the bytes that follow it are a whole sequence for a code point. -/
def Reads (b : UInt8) (tail : List UInt8) (code : Nat) : Prop :=
  continuationCount? b = some tail.length ∧
    readContinuations b tail.length 0 (startPayload b tail.length) tail = .char (Char.ofNat code)

theorem toNat_ofNat {n : Nat} (hn : n < 256) :
    (UInt8.ofNat n).toNat = n := UInt8.toNat_ofNat_of_lt hn

/-- A code point with the payloads of further bytes. -/
def withPayloads (code : Nat) (ns : List Nat) :
    Nat := ns.foldl (fun code n => code * 64 + n % 64) code

theorem readContinuations_tail (b : UInt8) {ns : List Nat} {n k code : Nat}
    (hn : n = k + 1 + ns.length) (hns : ∀ m ∈ ns, 0x80 ≤ m ∧ m ≤ 0xbf) :
    readContinuations b n (k + 1) code (ns.map UInt8.ofNat)
      = .char (Char.ofNat (withPayloads code ns)) := by
  induction ns generalizing k code with
  | nil => exact readContinuations_done _ _ _ _ _ (by simp [hn])
  | cons m ns ih =>
    obtain ⟨hm, hns⟩ := List.forall_mem_cons.mp hns
    have hbyte := toNat_ofNat (n := m) (by omega)
    have hlow : (0x80 : UInt8).toNat ≤ (UInt8.ofNat m).toNat := hbyte.symm ▸ hm.1
    have hhigh : (UInt8.ofNat m).toNat ≤ (0xbf : UInt8).toNat := hbyte.symm ▸ hm.2
    rw [List.length_cons] at hn
    rw [List.map_cons, readContinuations_next _ _ _ _ _ (by omega) ⟨toNat_le hlow, toNat_le hhigh⟩,
      hbyte]
    exact ih (by omega) hns

/-- A start byte with what follows it, by their values. -/
theorem reads_cons (ns : List Nat) {m n code : Nat} (hm : 0xc2 ≤ m ∧ m ≤ 0xf4)
    (hlength : ns.length = if m ≤ 0xdf then 0 else if m ≤ 0xef then 1 else 2)
    (hns : ∀ k ∈ n :: ns, 0x80 ≤ k ∧ k ≤ 0xbf) (hlow : (m = 0xe0 → 0xa0 ≤ n) ∧
    (m = 0xf0 → 0x90 ≤ n))
    (hhigh : (m = 0xed → n ≤ 0x9f) ∧ (m = 0xf4 → n ≤ 0x8f))
    (hcode : withPayloads (startPayload (UInt8.ofNat m) (ns.length + 1)) (n :: ns) = code) :
    Reads (UInt8.ofNat m) (UInt8.ofNat n :: ns.map UInt8.ofNat) code := by
  obtain ⟨hn, hns⟩ := List.forall_mem_cons.mp hns
  have hbyte := toNat_ofNat (n := m) (by omega)
  have hnext := toNat_ofNat (n := n) (by omega)
  unfold Reads
  rw [List.length_cons, List.length_map]
  constructor
  · rw [continuationCount?_eq, hbyte, hlength, if_neg (by omega)]
    split_ifs <;> first | rfl | omega
  · rw [readContinuations_first _ _ _ _ (Nat.succ_pos _)
      (secondRange_le (by omega) (by omega) (by omega) (by omega) (by omega) (by omega)),
      readContinuations_tail _ (by omega) hns, hnext, ← hcode]
    rfl

/-- **The bytes of a character are read back**: the first one tells how many follow, and together
    they give the character. -/
theorem reads_encode (c : Char) : ∃ b tail, String.utf8EncodeChar c = b :: tail ∧
    Reads b tail c.toNat := by
  have hvalid : c.toNat < 0xd800 ∨ 0xdfff < c.toNat ∧ c.toNat < 0x110000 := c.valid
  unfold String.utf8EncodeChar
  rw [show c.val.toNat = c.toNat from rfl]
  generalize c.toNat = v at hvalid
  dsimp only
  -- one case for each number of bytes
  split
  · have hb := toNat_ofNat (n := v) (by omega)
    refine ⟨_, _, rfl, by rw [continuationCount?_eq, if_pos (by omega)]; rfl, ?_⟩
    exact (readContinuations_done _ _ _ _ _ (Nat.lt_irrefl 0)).trans
      (congrArg (fun code => Utf8Step.char (Char.ofNat code)) hb)
  · split
    · have hb := toNat_ofNat (n := v / 64 % 32 + 192) (by omega)
      refine ⟨_, _, rfl, reads_cons [] (by omega) ?_ (by simp; omega) (by omega) (by omega) ?_⟩
      · rw [if_pos (by omega)]
        rfl
      · simp only [withPayloads, startPayload, List.foldl, List.length, hb]
        omega
    · split
      · have hb := toNat_ofNat (n := v / 4096 % 16 + 224) (by omega)
        refine ⟨_, _, rfl, reads_cons [_] (by omega) ?_ (by simp; omega) (by omega) (by omega) ?_⟩
        · rw [if_neg (by omega), if_pos (by omega)]
          rfl
        · simp only [withPayloads, startPayload, List.foldl, List.length, hb]
          omega
      · have hb := toNat_ofNat (n := v / 262144 % 8 + 240) (by omega)
        refine ⟨_, _, rfl, reads_cons [_, _] (by omega) ?_ (by simp; omega) (by omega)
          (by omega) ?_⟩
        · rw [if_neg (by omega), if_neg (by omega)]
          rfl
        · simp only [withPayloads, startPayload, List.foldl, List.length, hb]
          omega

/-! ## §2. Bytes in two parts. -/

/-- A sequence that is whole is read the same whatever follows it. -/
theorem readContinuations_append (b : UInt8) (n : Nat) {c : Char} (more : List UInt8) :
    ∀ {k code : Nat} {bs : List UInt8}, readContinuations b n k code bs = .char c →
      n - k ≤ bs.length ∧ readContinuations b n k code (bs ++ more) = .char c := by
  intro k code bs h
  fun_induction readContinuations b n k code bs with
  | case1 => cases h
  | case2 k code hk x rest lo hi hrange hx ih =>
    obtain ⟨hlength, hread⟩ := ih h
    rw [dite_eq_ite] at hrange
    refine ⟨by simp; omega, ?_⟩
    rw [List.cons_append, readContinuations, if_pos hk, hrange]
    exact (if_pos hx).trans hread
  | case3 => cases h
  | case4 k code bs hk =>
    refine ⟨by omega, ?_⟩
    rw [readContinuations_done _ _ _ _ _ hk]
    exact h

/-- Bytes that can be read do not change how the bytes after them are read. -/
theorem decodeUtf8_go_append (more : List UInt8) {cs : List Char} :
    ∀ {bs : List UInt8} {pos skip : Nat} {acc : List Char}, skip ≤ bs.length →
    decodeUtf8.go pos skip bs acc = .ok cs →
      ∃ pos', decodeUtf8.go pos skip (bs ++ more) acc = decodeUtf8.go pos' 0 more cs.reverse := by
  intro bs
  induction bs with
  | nil =>
    intro pos skip acc hskip h
    obtain rfl : skip = 0 := by simpa using hskip
    rw [decodeUtf8.go] at h
    cases h
    exact ⟨pos, by rw [List.reverse_reverse]; rfl⟩
  | cons b bs ih =>
    intro pos skip acc hskip h
    rw [List.cons_append]
    cases skip with
    | succ skip =>
      rw [decodeUtf8.go] at h ⊢
      exact ih (by simpa using hskip) h
    | zero =>
      rw [decodeUtf8.go] at h ⊢
      cases hcount : continuationCount? b with
      | none => simp [hcount] at h
      | some n =>
        cases hread : readContinuations b n 0 (startPayload b n) bs with
        | fault good reason => simp [hcount, hread] at h
        | char c =>
          obtain ⟨hlength, hread'⟩ := readContinuations_append b n more hread
          simp only [hcount, hread] at h
          simp only [hread']
          exact ih hlength h

/-- What was read before only stands before what is read. -/
theorem decodeUtf8_go_shift {cs : List Char} :
    ∀ {bs : List UInt8} {pos skip : Nat} {acc : List Char}, decodeUtf8.go pos skip bs acc = .ok cs →
    ∃ ds, cs = acc.reverse ++ ds ∧
      ∀ pos' acc', decodeUtf8.go pos' skip bs acc' = .ok (acc'.reverse ++ ds) := by
  intro bs
  induction bs with
  | nil =>
    intro pos skip acc h
    rw [decodeUtf8.go] at h
    cases h
    exact ⟨[], by simp, fun pos' acc' => by rw [decodeUtf8.go, List.append_nil]⟩
  | cons b bs ih =>
    intro pos skip acc h
    cases skip with
    | succ skip =>
      rw [decodeUtf8.go] at h
      obtain ⟨ds, hcs, hgo⟩ := ih h
      exact ⟨ds, hcs, fun pos' acc' => by rw [decodeUtf8.go, hgo]⟩
    | zero =>
      rw [decodeUtf8.go] at h
      cases hcount : continuationCount? b with
      | none => simp [hcount] at h
      | some n =>
        cases hread : readContinuations b n 0 (startPayload b n) bs with
        | fault good reason => simp [hcount, hread] at h
        | char c =>
          simp only [hcount, hread] at h
          obtain ⟨ds, hcs, hgo⟩ := ih h
          refine ⟨c :: ds, by simpa using hcs, fun pos' acc' => ?_⟩
          rw [decodeUtf8.go]
          simp only [hcount, hread]
          rw [hgo]
          simp

/-- **Bytes can be read in two parts**, if the first part ends with a whole character. -/
theorem decodeUtf8_append {a b : List UInt8} {cs ds : List Char} (ha : decodeUtf8 a = .ok cs)
    (hb : decodeUtf8 b = .ok ds) : decodeUtf8 (a ++ b) = .ok (cs ++ ds) := by
  unfold decodeUtf8 at ha hb ⊢
  obtain ⟨pos, hfirst⟩ := decodeUtf8_go_append b (Nat.zero_le _) ha
  obtain ⟨ds', hds, hgo⟩ := decodeUtf8_go_shift hb
  rw [hfirst, hgo, hds]
  simp

/-! ## §3. The bytes of a text. -/

/-- Bytes that belong to a character already read are passed over. -/
theorem decodeUtf8_go_skip (tail : List UInt8) (pos : Nat) (acc : List Char) :
    decodeUtf8.go pos tail.length tail acc = .ok acc.reverse := by
  induction tail generalizing pos with
  | nil => rfl
  | cons b tail ih => exact ih (pos + 1)

theorem decodeUtf8_encode (cs : List Char) :
    decodeUtf8 (cs.flatMap String.utf8EncodeChar) = .ok cs := by
  induction cs with
  | nil => rfl
  | cons c cs ih =>
    obtain ⟨b, tail, hencode, hcount, hread⟩ := reads_encode c
    have hfirst : decodeUtf8 (b :: tail) = .ok [c] := by
      rw [decodeUtf8, decodeUtf8.go]
      simp only [hcount, hread, Char.ofNat_toNat]
      exact decodeUtf8_go_skip tail _ _
    rw [List.flatMap_cons, hencode]
    exact decodeUtf8_append hfirst ih

/-- The list of a byte array, read byte by byte, is the list of its data. -/
theorem byteArray_toList (bytes : ByteArray) : bytes.toList = bytes.data.toList := by
  have hloop : ∀ (n i : Nat) (r : List UInt8), bytes.size - i = n → i ≤ bytes.size →
      ByteArray.toList.loop bytes i r = r.reverse ++ bytes.data.toList.drop i := by
    intro n
    induction n with
    | zero =>
      intro i r hn hi
      have hlength : bytes.data.toList.length ≤ i := by
        show bytes.size ≤ i
        omega
      rw [ByteArray.toList.loop, if_neg (by omega), List.drop_eq_nil_of_le hlength, List.append_nil]
    | succ n ih =>
      intro i r hn hi
      have hlt : i < bytes.data.toList.length := by
        show i < bytes.size
        omega
      have hget : bytes.get! i = bytes.data.toList[i] := by
        show bytes.data[i]! = _
        rw [getElem!_pos bytes.data i hlt, Array.getElem_toList]
      rw [ByteArray.toList.loop, if_pos (by omega), ih (i + 1) _ (by omega) (by omega), hget,
        List.drop_eq_getElem_cons hlt]
      simp
  unfold ByteArray.toList
  rw [hloop _ 0 [] rfl (Nat.zero_le _)]
  rfl

/-- **What is written as UTF-8 is read back.** -/
theorem decodeUtf8_toUTF8 (s : String) : decodeUtf8 s.toUTF8.toList = .ok s.toList := by
  have hbytes : s.toUTF8.toList = s.toList.flatMap String.utf8EncodeChar := by
    rw [byteArray_toList]
    show s.toByteArray.data.toList = _
    rw [← String.utf8Encode_toList]
    exact List.toList_data_toByteArray
  rw [hbytes, decodeUtf8_encode]

end AddonAudit.Text
