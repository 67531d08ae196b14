import Mathlib.Tactic.IntervalCases
import Pyrxd.Glyph.DmintState
import Pyrxd.Swap.PartialSafety

/-!
# What the builders write, the reader reads

Each item of a state is read back from what is pushed for it, whatever stands
behind it (`Reads`), so the walk over a built script ends at its separator. A V1
script fails as V2 at its fourth number, where the separator stands, and a V2
script fails as V1 where the target should be.

A ref comes back with its txid spelled in 64 digits. `_TXID_RE` ends in `$`,
which also matches before a last line feed, so a `Txid` may have 65 characters:
such a ref does not come back equal.
-/

namespace Pyrxd.Glyph

open Pyrxd.Lib Pyrxd.Tx
open Pyrxd.Swap (GlyphRef isLowerHex isTxid)

/-! ## Refs -/

/-- A ref whose txid has the 64 characters a txid is said to have. -/
def PlainRef (r : GlyphRef) : Prop := r.txid.length = 64

/-- A lower-case hex digit is the digit of a number below 16. -/
theorem hexDigit_of_isLowerHex {c : Char} (h : isLowerHex c = true) :
    ∃ n < 16, c = hexDigit n := by
  unfold isLowerHex at h
  simp only [Bool.or_eq_true, Bool.and_eq_true, decide_eq_true_eq] at h
  rcases h with ⟨hlo, hhi⟩ | ⟨hlo, hhi⟩
  · have hlo' : 48 ≤ c.toNat := hlo
    have hhi' : c.toNat ≤ 57 := hhi
    refine ⟨c.toNat - 48, by omega, ?_⟩
    rw [hexDigit, if_pos (by omega), Nat.add_sub_cancel' hlo', Char.ofNat_toNat]
  · have hlo' : 97 ≤ c.toNat := hlo
    have hhi' : c.toNat ≤ 102 := hhi
    refine ⟨c.toNat - 87, by omega, ?_⟩
    rw [hexDigit, if_neg (by omega), Nat.add_sub_cancel' (by omega),
      Char.ofNat_toNat]

/-- Lower-case digits, an even number of them, are the hex of some bytes. -/
theorem hexChars_of_lowerHex : ∀ {k : Nat} {cs : List Char}, cs.length = 2 * k →
    cs.all isLowerHex = true → ∃ b : Bytes, b.length = k ∧ cs = hexChars b := by
  intro k
  induction k with
  | zero =>
    intro cs hlen _
    exact ⟨[], rfl, List.length_eq_zero_iff.mp hlen⟩
  | succ k ih =>
    intro cs hlen hall
    match cs with
    | [] => cases hlen
    | [_] => exact absurd hlen (by rw [List.length_singleton]; omega)
    | c :: d :: cs =>
      rw [List.all_cons, List.all_cons, Bool.and_eq_true,
        Bool.and_eq_true] at hall
      obtain ⟨hi, hhi, rfl⟩ := hexDigit_of_isLowerHex hall.1
      obtain ⟨lo, hlo, rfl⟩ := hexDigit_of_isLowerHex hall.2.1
      obtain ⟨b, hb, rfl⟩ :=
        ih (by simp only [List.length_cons] at hlen; omega) hall.2.2
      have hnat : (UInt8.ofNat (16 * hi + lo)).toNat = 16 * hi + lo := by
        rw [UInt8.toNat_ofNat']
        omega
      refine ⟨UInt8.ofNat (16 * hi + lo) :: b, by rw [List.length_cons, hb], ?_⟩
      rw [hexChars, hnat, show (16 * hi + lo) / 16 =
        hi by omega, show (16 * hi + lo) % 16 = lo by omega]

/-- `bytes.fromhex` skips a line feed at the end. -/
theorem fromHexChars_lineFeed (b : Bytes) :
    fromHexChars (hexChars b ++ ['\n']) = some b := by
  induction b with
  | nil => rfl
  | cons x b ih =>
    have hx := x.toNat_lt
    have hsum : 16 * (x.toNat / 16) + x.toNat % 16 = x.toNat := by omega
    rw [hexChars, List.cons_append, List.cons_append, fromHexChars,
      isAsciiSpace_hexDigit _ (by omega), if_neg Bool.false_ne_true,
        hexVal_hexDigit _ (by omega),
      hexVal_hexDigit _ (by omega)]
    simp only [ih, Option.map_some, hsum, UInt8.ofNat_toNat]

/-- **A ref on the wire** is read back as the ref of the 64 digits. -/
theorem glyphRef_reread (r : GlyphRef) : ∃ data r', r.toBytes = .ok data ∧
    data.length = 36 ∧
    GlyphRef.fromBytes data = .ok r' ∧ (r' = r ↔ PlainRef r) := by
  obtain ⟨txid, vout, htxid, hvout⟩ := r
  have hparts := htxid
  unfold isTxid at hparts
  simp only [Bool.and_eq_true, Bool.or_eq_true, beq_iff_eq] at hparts
  obtain ⟨⟨hlen, hall⟩, htail⟩ := hparts
  obtain ⟨b, hb, hdigits⟩ := hexChars_of_lowerHex (k := 32) hlen hall
  have hsplit : txid.toList = hexChars b ++ txid.toList.drop 64 := by
    rw [← hdigits, List.take_append_drop]
  -- a line feed that the pattern lets through is skipped as white space
  have hread : fromHex txid = some b := by
    rw [fromHex, hsplit]
    rcases htail with htail | htail
    · rw [htail, List.append_nil, fromHexChars_hexChars]
    · rw [htail, fromHexChars_lineFeed]
  have hbytes : GlyphRef.toBytes ⟨txid, vout, htxid, hvout⟩ =
      .ok (b.reverse ++ leBytes 4 vout.toNat) := by
    rw [GlyphRef.toBytes, txidBytes, hread]
    show (Except.ok b.reverse >>= _) = _
    rw [ok_bind]
    dsimp only
    rw [toBytesLe, if_neg (by omega), if_pos (by omega)]
    rfl
  have hwire : (b.reverse ++ leBytes 4 vout.toNat).length = 36 := by
    rw [List.length_append, List.length_reverse, hb, length_leBytes]
  have htake : (b.reverse ++ leBytes 4 vout.toNat).take 32 = b.reverse :=
    List.take_left' (by rw [List.length_reverse, hb])
  have hdrop : (b.reverse ++ leBytes 4 vout.toNat).drop 32 =
      leBytes 4 vout.toNat :=
    List.drop_left' (by rw [List.length_reverse, hb])
  have hval : (leNat (leBytes 4 vout.toNat) : Int) = vout := by
    rw [leNat_leBytes (by omega)]
    omega
  refine ⟨_, ⟨hex b, vout, Swap.isTxid_hex hb, hvout⟩, hbytes, hwire, ?_, ?_⟩
  · rw [GlyphRef.fromBytes, refuseIf, if_neg (not_not.mpr hwire),
      ok_bind, htake, hdrop,
      List.reverse_reverse, hval, GlyphRef.make, dif_pos (Swap.isTxid_hex hb),
        dif_pos hvout]
  · unfold PlainRef
    rw [GlyphRef.mk.injEq]
    simp only [and_true]
    constructor
    · rintro rfl
      rw [← String.length_toList, hex, String.toList_ofList,
        length_hexChars, hb]
    · intro h64
      have hnil : txid.toList.drop 64 = [] :=
        List.drop_of_length_le (by rw [String.length_toList]; exact Nat.le_of_eq h64)
      rw [hnil, List.append_nil] at hsplit
      rw [hex, ← hsplit, String.ofList_toList]

/-- A reference's wire form reads back, and to the same reference exactly when
it is plain. -/
theorem glyphRef_wire {r : GlyphRef} {data : Bytes} (h : r.toBytes = .ok data) :
    data.length = 36 ∧
    ∃ r', GlyphRef.fromBytes data = .ok r' ∧ (r' = r ↔ PlainRef r) := by
  obtain ⟨data', r', hbytes, hlen, hread, hplain⟩ := glyphRef_reread r
  rw [h] at hbytes
  cases hbytes
  exact ⟨hlen, r', hread, hplain⟩

/-! ## Items -/

/-- A reader takes these bytes for `a`, whatever follows. -/
def Reads {α : Type} (read : Cursor → Except PyErr (α × Cursor)) (b : Bytes)
    (a : α) : Prop :=
  ∀ pos rest, read ⟨pos, b ++ rest⟩ = .ok (a, ⟨pos + b.length, rest⟩)

/-- The cursor steps over a field. -/
theorem advance_append {pos : Nat} {b rest : Bytes} {k : Nat}
    (h : b.length = k) :
    Cursor.advance ⟨pos, b ++ rest⟩ k = ⟨pos + b.length, rest⟩ := by
  rw [Cursor.advance, List.drop_left' h, h]

/-- Clearing the sign bit with `^=`. -/
theorem xor_top {m i : Nat} (h : m < 2 ^ i) : (m + 2 ^ i) ^^^ 2 ^ i = m := by
  have hpos : 0 < 2 ^ i := Nat.pow_pos (by decide)
  have hmod : ((m + 2 ^ i) ^^^ 2 ^ i) % 2 ^ i = m := by
    rw [Nat.xor_mod_two_pow, Nat.add_mod_right, Nat.mod_self, Nat.xor_zero,
      Nat.mod_eq_of_lt h]
  have hdiv : ((m + 2 ^ i) ^^^ 2 ^ i) / 2 ^ i = 0 := by
    rw [Nat.xor_div_two_pow, Nat.add_div_right _ hpos, Nat.div_eq_of_lt h,
      Nat.div_self hpos]
    rfl
  have := Nat.div_add_mod ((m + 2 ^ i) ^^^ 2 ^ i) (2 ^ i)
  rw [hmod, hdiv] at this
  omega

/-- The reader's integers are the script's. -/
theorem decodeScriptLeInt_eq (raw : Bytes) :
    decodeScriptLeInt raw = decodeNum raw := by
  -- both readers split off the last byte, which carries the sign
  rcases List.eq_nil_or_concat raw with rfl | ⟨b, x, rfl⟩
  · rfl
  have hne : b.concat x ≠ [] := by simp
  have hlast : (b.concat x).getLastD 0 = x := by simp
  have hlast? : (b.concat x).getLast? = some x := by simp
  rw [decodeScriptLeInt, if_neg hne, hlast, decodeNum, hlast?]
  dsimp only
  by_cases hx : 0x80 ≤ x
  · rw [if_pos (and_128_ne_zero.mpr hx), if_pos hx]
    have hge := uint8_ge_iff.mp hx
    have htop : 0x80 <<< (8 * ((b.concat x).length - 1)) =
        2 ^ (8 * b.length + 7) := by
      rw [Nat.shiftLeft_eq, List.length_concat, Nat.add_sub_cancel,
        Nat.pow_add, Nat.mul_comm]
    have hpow : 128 * 256 ^ b.length = 2 ^ (8 * b.length + 7) := by
      rw [Nat.pow_add, Nat.pow_mul, Nat.mul_comm]
    have hsplit : leNat (b.concat x) =
        (leNat b + 256 ^ b.length * (x.toNat - 128)) + 2 ^
          (8 * b.length + 7) := by
      rw [List.concat_eq_append, leNat_append, leNat_singleton, ← hpow,
        Nat.add_assoc,
        Nat.mul_comm 128, ← Nat.mul_add, Nat.sub_add_cancel hge]
    have hlow : leNat b + 256 ^ b.length * (x.toNat - 128) <
        2 ^ (8 * b.length + 7) := by
      have hb := leNat_lt b
      have hx := x.toNat_lt
      have hmul : 256 ^ b.length * (x.toNat - 128) ≤ 256 ^ b.length * 127 :=
        Nat.mul_le_mul_left _ (by omega)
      rw [← hpow]
      omega
    have hcast : (0x80 : Int) * 256 ^ ((b.concat x).length - 1) =
        (2 ^ (8 * b.length + 7) : Nat) := by
      rw [List.length_concat, Nat.add_sub_cancel, ← hpow]
      push_cast
      rfl
    rw [htop, hsplit, xor_top hlow, hcast]
    push_cast
    ring
  · rw [if_neg (fun h => hx (and_128_ne_zero.mp h)), if_neg hx]

section Items

variable {n : Int} {b : Bytes}

/-- A direct push of a number reads back. -/
theorem reads_direct {d : Bytes} (hpos : 1 ≤ d.length) (h75 : d.length ≤ 75) :
    Reads parseScriptInt (UInt8.ofNat d.length :: d) (decodeNum d) := by
  intro pos rest
  have hnat : (UInt8.ofNat d.length).toNat = d.length := by
    rw [UInt8.toNat_ofNat']
    omega
  have hne : ∀ x : UInt8, x.toNat ≠ d.length → UInt8.ofNat d.length ≠ x := by
    intro x hx he
    rw [← he, hnat] at hx
    exact hx rfl
  have hop : ¬ (0x51 ≤ UInt8.ofNat d.length ∧ UInt8.ofNat d.length ≤ 0x60) := by
    rintro ⟨hlo, -⟩
    have : 81 ≤ (UInt8.ofNat d.length).toNat := hlo
    omega
  have hdirect : 1 ≤ UInt8.ofNat d.length ∧ UInt8.ofNat d.length ≤ 75 := by
    constructor
    · show 1 ≤ (UInt8.ofNat d.length).toNat
      omega
    · show (UInt8.ofNat d.length).toNat ≤ 75
      omega
  have h0 : (0 : UInt8).toNat ≠ d.length := by
    show 0 ≠ d.length
    omega
  have h4f : (0x4F : UInt8).toNat ≠ d.length := by
    show 79 ≠ d.length
    omega
  have h4c : (0x4C : UInt8).toNat ≠ d.length := by
    show 76 ≠ d.length
    omega
  rw [parseScriptInt]
  dsimp only [List.cons_append]
  rw [if_neg (hne _ h0), if_neg (hne _ h4f), if_neg hop, if_neg (hne _ h4c),
    if_pos hdirect, hnat,
    List.take_left, if_neg (not_not.mpr rfl), decodeScriptLeInt_eq,
      ← List.cons_append,
    advance_append (by rw [List.length_cons, Nat.add_comm])]

theorem reads_pushdata1 {d : Bytes} (h255 : d.length ≤ 255) :
    Reads parseScriptInt (0x4C :: UInt8.ofNat d.length :: d) (decodeNum d) := by
  intro pos rest
  have hnat : (UInt8.ofNat d.length).toNat = d.length := by
    rw [UInt8.toNat_ofNat']
    omega
  rw [parseScriptInt]
  dsimp only [List.cons_append]
  rw [if_neg (by decide), if_neg (by decide), if_neg (by decide), if_pos rfl,
    hnat, List.take_left,
    if_neg (not_not.mpr rfl), decodeScriptLeInt_eq, ← List.cons_append,
      ← List.cons_append,
    advance_append (by rw [List.length_cons, List.length_cons]; omega)]

/-- **A pushed number is read back.** -/
theorem reads_pushMinimal (h : pushMinimal n = .ok b) :
    Reads parseScriptInt b n := by
  intro pos rest
  unfold pushMinimal at h
  split at h
  · next h0 =>
    cases h
    subst h0
    rfl
  · next h0 =>
    split at h
    · next h1 =>
      cases h
      subst h1
      rfl
    · split at h
      · next hsmall =>
        cases h
        obtain ⟨k, rfl⟩ : ∃ k : Nat, n = k := ⟨n.toNat, by omega⟩
        have hk1 : 1 ≤ k := by omega
        have hk16 : k ≤ 16 := by omega
        interval_cases k <;> rfl
      · have hlen : 1 ≤ (scriptNum n).length := by
          apply List.length_pos_iff.mpr
          intro hnil
          have hdec := decodeNum_scriptNum n
          rw [hnil] at hdec
          exact h0 hdec.symm
        dsimp only at h
        have hval := decodeNum_scriptNum n
        split at h
        · next hshort =>
          cases h
          have hread := reads_direct hlen (by omega) pos rest
          rwa [hval] at hread
        · split at h
          · next hlong =>
            cases h
            have hread := reads_pushdata1 hlong pos rest
            rwa [hval] at hread
          · cases h

/-- A push of fixed width is read back. -/
theorem reads_fixed {k : Nat} (hlen : b.length = k)
    (expected truncated : String) :
    Reads (parseFixed k expected truncated) (UInt8.ofNat k :: b) (leNat b) := by
  intro pos rest
  have htotal : (UInt8.ofNat k :: b ++ rest).length = k + 1 + rest.length := by
    rw [List.length_append, List.length_cons, hlen]
  have hhead : ¬ (UInt8.ofNat k :: b ++ rest).head? ≠ some (UInt8.ofNat k) :=
    not_not.mpr rfl
  have hend : Cursor.advance ⟨pos, UInt8.ofNat k :: b ++ rest⟩ (k + 1) =
      ⟨pos + (UInt8.ofNat k :: b).length, rest⟩ :=
        advance_append (by rw [List.length_cons, hlen])
  rw [parseFixed, refuseIf, if_neg hhead, ok_bind, refuseIf,
    if_neg (by rw [htotal]; omega), ok_bind, hend]
  show Except.ok (leNat ((b ++ rest).take k), _) = _
  rw [List.take_left' hlen]

/-- A packed field has its width and its number. -/
theorem structPackU_ok {k : Nat} (h : structPackU k n = .ok b) :
    b.length = k ∧ (leNat b : Int) = n := by
  unfold structPackU at h
  split at h
  · next hn =>
    cases h
    have hlt : n.toNat < 256 ^ k := by
      have hcast : ((256 ^ k : Nat) : Int) = 256 ^ k := by push_cast; rfl
      omega
    rw [leNat_leBytes hlt]
    exact ⟨length_leBytes k _, by omega⟩
  · cases h

/-- A reference behind its opcode reads back. -/
theorem reads_ref {r : GlyphRef} {data : Bytes} (hlen : data.length = 36)
    (hr : GlyphRef.fromBytes data = .ok r) (opcode : UInt8)
    (expected truncated : String) :
    Reads (parseRef opcode expected truncated) (opcode :: data) r := by
  intro pos rest
  have hadvance : Cursor.advance ⟨pos, opcode :: data ++ rest⟩ 1 = ⟨pos + 1,
      data ++ rest⟩ := rfl
  have hhead : ¬ (opcode :: data ++ rest).head? ≠ some opcode := not_not.mpr rfl
  rw [parseRef, refuseIf, if_neg hhead, ok_bind]
  dsimp only
  rw [hadvance, refuseIf, if_neg (by rw [List.length_append]; omega), ok_bind,
    List.take_left' hlen, hr,
    ok_bind, advance_append hlen, List.length_cons, hlen, Nat.add_assoc]
  rfl

end Items

/-! ## Built scripts -/

namespace DmintState

variable {st : DmintState} {s : Bytes}

/-- The pieces a state is written in. -/
theorem v2StateScriptBytes_ok (h : st.v2StateScriptBytes = .ok s) :
    ∃ height contract token maxHeight reward algo daaMode targetTime lastTime
      target : Bytes,
      s = height ++
        (0xD8 :: contract ++ (0xD0 :: token ++ (maxHeight ++ (reward ++ (algo ++
        (daaMode ++ (targetTime ++ (0x04 :: lastTime ++ target)))))))) ∧
      pushMinimal st.height = .ok height ∧
        st.contractRef.toBytes = .ok contract ∧
      st.tokenRef.toBytes = .ok token ∧
        pushMinimal st.maxHeight = .ok maxHeight ∧
      pushMinimal st.reward = .ok reward ∧
        pushMinimal st.algo.value = .ok algo ∧
      pushMinimal st.daaMode.value = .ok daaMode ∧
        pushMinimal st.targetTime = .ok targetTime ∧
      structPackU 4 st.lastTime = .ok lastTime ∧
        pushMinimal st.target = .ok target := by
  unfold v2StateScriptBytes middleLiteral refPushes push4bytesLe at h
  obtain ⟨height, hheight, h⟩ := bind_ok.mp h
  obtain ⟨middle, hmiddle, h⟩ := bind_ok.mp h
  obtain ⟨refs, hrefs, hmiddle⟩ := bind_ok.mp hmiddle
  obtain ⟨contract, hcontract, hrefs⟩ := bind_ok.mp hrefs
  obtain ⟨token, htoken, hrefs⟩ := bind_ok.mp hrefs
  obtain ⟨maxHeight, hmax, hmiddle⟩ := bind_ok.mp hmiddle
  obtain ⟨reward, hreward, hmiddle⟩ := bind_ok.mp hmiddle
  obtain ⟨algo, halgo, hmiddle⟩ := bind_ok.mp hmiddle
  obtain ⟨daaMode, hdaa, hmiddle⟩ := bind_ok.mp hmiddle
  obtain ⟨targetTime, htime, hmiddle⟩ := bind_ok.mp hmiddle
  obtain ⟨lastPush, hlastPush, h⟩ := bind_ok.mp h
  obtain ⟨lastTime, hlast, hlastPush⟩ := bind_ok.mp hlastPush
  obtain ⟨target, htarget, h⟩ := bind_ok.mp h
  cases hrefs
  cases hmiddle
  cases hlastPush
  cases h
  refine ⟨height, contract, token, maxHeight, reward, algo, daaMode, targetTime,
    lastTime, target, ?_,
    hheight, hcontract, htoken, hmax, hreward, halgo, hdaa, htime,
      hlast, htarget⟩
  simp only [List.append_assoc, List.cons_append]

/-- **A written V2 state is read back**, up to the spelling of its refs. -/
theorem fromV2Script_written (h : st.v2StateScriptBytes = .ok s)
    (hv2 : st.isV1 = false) :
    ∃ contractRef tokenRef, (contractRef = st.contractRef ↔
      PlainRef st.contractRef) ∧
      (tokenRef = st.tokenRef ↔ PlainRef st.tokenRef) ∧
      ∀ code, fromV2Script (s ++ opStateSeparator :: code) =
        .ok { st with contractRef := contractRef, tokenRef := tokenRef } := by
  obtain ⟨height, contract, token, maxHeight, reward, algo, daaMode, targetTime,
    lastTime, target, rfl,
    hheight, hcontract, htoken, hmax, hreward, halgo, hdaa, htime, hlast,
      htarget⟩ := v2StateScriptBytes_ok h
  obtain ⟨hlen1, r1, hread1, hplain1⟩ := glyphRef_wire hcontract
  obtain ⟨hlen2, r2, hread2, hplain2⟩ := glyphRef_wire htoken
  obtain ⟨hlen4, hlastVal⟩ := structPackU_ok hlast
  refine ⟨r1, r2, hplain1, hplain2, ?_⟩
  intro code
  unfold fromV2Script fromV2ScriptWith
  simp only [List.append_assoc, List.cons_append]
  rw [reads_pushMinimal hheight, ok_bind]
  dsimp only
  rw [← List.cons_append, reads_ref hlen1 hread1, ok_bind]
  dsimp only
  rw [← List.cons_append, reads_ref hlen2 hread2, ok_bind]
  dsimp only
  rw [reads_pushMinimal hmax, ok_bind]
  dsimp only
  rw [reads_pushMinimal hreward, ok_bind]
  dsimp only
  rw [reads_pushMinimal halgo, ok_bind]
  dsimp only
  rw [reads_pushMinimal hdaa, ok_bind]
  dsimp only
  rw [reads_pushMinimal htime, ok_bind]
  dsimp only
  have hsep : ∀ pos, checkSeparator ⟨pos, opStateSeparator :: code⟩ =
      .ok () := fun _ => rfl
  rw [← List.cons_append, show (0x04 : UInt8) = UInt8.ofNat 4 from rfl,
    reads_fixed hlen4, ok_bind]
  dsimp only
  rw [reads_pushMinimal htarget, ok_bind]
  dsimp only
  rw [hsep, ok_bind, DmintAlgo.ofValue_value, DaaMode.ofValue_value,
    hlastVal, ← hv2]
  rfl

/-- `raise ValidationError`. -/
def Refused {α : Type} (x : Except PyErr α) : Prop :=
  ∃ m, x = .error (.validation m)

/-- A refusal in front refuses the whole. -/
theorem Refused.bind {α β : Type} {x : Except PyErr α} (h : Refused x)
    (f : α → Except PyErr β) :
    Refused (x >>= f) := by
  obtain ⟨m, rfl⟩ := h
  exact ⟨m, rfl⟩

/-- A field of another width is refused. -/
theorem refused_parseFixed {k : Nat} {b : Bytes} (hb : b ≠ [])
    (h : b.head? ≠ some (UInt8.ofNat k))
    (expected truncated : String) (pos : Nat) (rest : Bytes) :
    Refused (parseFixed k expected truncated ⟨pos, b ++ rest⟩) := by
  obtain ⟨x, b, rfl⟩ := List.exists_cons_of_ne_nil hb
  have hhead : (x :: b ++ rest).head? ≠ some (UInt8.ofNat k) := h
  rw [parseFixed, refuseIf, if_pos hhead]
  exact ⟨_, rfl⟩

/-- A push writes at least one byte. -/
theorem pushMinimal_ne_nil {n : Int} {b : Bytes}
    (h : pushMinimal n = .ok b) : b ≠ [] := by
  unfold pushMinimal at h
  dsimp only at h
  split_ifs at h <;> cases h <;> exact List.cons_ne_nil _ _

/-- A number that is pushed with the byte `04` has four bytes. -/
theorem pushMinimal_head {n : Int} {b : Bytes} (h : pushMinimal n = .ok b)
    (hhead : b.head? = some 0x04) :
    ∃ d, b = 0x04 :: d ∧ d.length = 4 := by
  unfold pushMinimal at h
  split at h
  · cases h
    cases hhead
  · split at h
    · cases h
      cases hhead
    · split at h
      · next hsmall =>
        cases h
        obtain ⟨k, rfl⟩ : ∃ k : Nat, n = k := ⟨n.toNat, by omega⟩
        have hk : k ≤ 16 := by omega
        have hall : ∀ k ≤ 16, (UInt8.ofNat (0x50 + k)) ≠ 0x04 := by decide
        exact absurd (Option.some.inj hhead) (hall k hk)
      · dsimp only at h
        split at h
        · next hshort =>
          cases h
          have hlen := congrArg UInt8.toNat (Option.some.inj hhead)
          rw [UInt8.toNat_ofNat'] at hlen
          refine ⟨_, congrArg (· :: scriptNum n) (Option.some.inj hhead), ?_⟩
          have h4 : (0x04 : UInt8).toNat = 4 := rfl
          omega
        · split at h
          · cases h
            cases hhead
          · cases h

/-- The number of an algorithm is never pushed as eight bytes. -/
theorem algo_push {a : DmintAlgo} {b : Bytes}
    (h : pushMinimal a.value = .ok b) :
    b.head? ≠ some (UInt8.ofNat 8) := by
  cases a <;> cases h <;> decide

/-- **A V2 state is not read as V1.** -/
theorem fromV1Script_v2 (h : st.v2StateScriptBytes = .ok s) (code : Bytes) :
    Refused (fromV1Script (s ++ opStateSeparator :: code)) := by
  obtain ⟨height, contract, token, maxHeight, reward, algo, daaMode, targetTime,
    lastTime, target, rfl,
    hheight, hcontract, htoken, hmax, hreward, halgo, -⟩ :=
      v2StateScriptBytes_ok h
  obtain ⟨hlen1, r1, hread1, -⟩ := glyphRef_wire hcontract
  obtain ⟨hlen2, r2, hread2, -⟩ := glyphRef_wire htoken
  unfold fromV1Script
  simp only [List.append_assoc, List.cons_append]
  by_cases hhead : height.head? = some 0x04
  · obtain ⟨d, rfl, hd⟩ := pushMinimal_head hheight hhead
    rw [show (0x04 : UInt8) = UInt8.ofNat 4 from rfl, reads_fixed hd, ok_bind]
    dsimp only
    rw [← List.cons_append, reads_ref hlen1 hread1, ok_bind]
    dsimp only
    rw [← List.cons_append, reads_ref hlen2 hread2, ok_bind]
    dsimp only
    rw [reads_pushMinimal hmax, ok_bind]
    dsimp only
    rw [reads_pushMinimal hreward, ok_bind]
    dsimp only
    -- the number of the algorithm stands where the target should
    apply Refused.bind
    exact refused_parseFixed (pushMinimal_ne_nil halgo)
      (algo_push halgo) _ _ _ _
  · apply Refused.bind
    exact refused_parseFixed (pushMinimal_ne_nil hheight) hhead _ _ _ _

/-- The pieces of a V1 state. -/
theorem buildDmintV1StateScript_ok {a : V1Args}
    (h : buildDmintV1StateScript a = .ok s) :
    ∃ height contract token maxHeight reward target : Bytes,
      s = 0x04 :: height ++
        (0xD8 :: contract ++ (0xD0 :: token ++ (maxHeight ++ (reward ++
        (0x08 :: target))))) ∧
      structPackU 4 a.height = .ok height ∧
        a.contractRef.toBytes = .ok contract ∧
      a.tokenRef.toBytes = .ok token ∧ pushMinimal a.maxHeight = .ok maxHeight ∧
      pushMinimal a.reward = .ok reward ∧
        structPackU 8 a.target = .ok target := by
  unfold buildDmintV1StateScript refPushes push4bytesLe at h
  obtain ⟨-, h⟩ := refuseIf_bind_ok.mp h
  obtain ⟨-, h⟩ := refuseIf_bind_ok.mp h
  obtain ⟨-, h⟩ := refuseIf_bind_ok.mp h
  obtain ⟨-, h⟩ := refuseIf_bind_ok.mp h
  obtain ⟨-, h⟩ := refuseIf_bind_ok.mp h
  obtain ⟨heightPush, hheightPush, h⟩ := bind_ok.mp h
  obtain ⟨height, hheight, hheightPush⟩ := bind_ok.mp hheightPush
  obtain ⟨refs, hrefs, h⟩ := bind_ok.mp h
  obtain ⟨contract, hcontract, hrefs⟩ := bind_ok.mp hrefs
  obtain ⟨token, htoken, hrefs⟩ := bind_ok.mp hrefs
  obtain ⟨maxHeight, hmax, h⟩ := bind_ok.mp h
  obtain ⟨reward, hreward, h⟩ := bind_ok.mp h
  obtain ⟨target, htarget, h⟩ := bind_ok.mp h
  cases hheightPush
  cases hrefs
  cases h
  refine ⟨height, contract, token, maxHeight, reward, target, ?_, hheight,
    hcontract, htoken, hmax, hreward, htarget⟩
  simp only [List.append_assoc, List.cons_append]

/-- The epilogue of the version 1 contract names its algorithm. -/
theorem matchV1Epilogue_code (algo : DmintAlgo) :
    matchV1Epilogue (buildDmintV1CodeScript algo) = some algo := by
  cases algo <;> decide +kernel

/-- **A written V1 state is read back**, up to the spelling of its refs. -/
theorem fromV1Script_written {a : V1Args} (h : buildDmintV1StateScript a = .ok s) :
    ∃ contractRef tokenRef, (contractRef = a.contractRef ↔ PlainRef a.contractRef) ∧
      (tokenRef = a.tokenRef ↔ PlainRef a.tokenRef) ∧
      fromV1Script (s ++ buildDmintV1CodeScript a.algo) =
        .ok { a.state with contractRef := contractRef, tokenRef := tokenRef } := by
  obtain ⟨height, contract, token, maxHeight, reward, target, rfl, hheight,
    hcontract, htoken, hmax,
    hreward, htarget⟩ := buildDmintV1StateScript_ok h
  obtain ⟨hlen1, r1, hread1, hplain1⟩ := glyphRef_wire hcontract
  obtain ⟨hlen2, r2, hread2, hplain2⟩ := glyphRef_wire htoken
  obtain ⟨hlen4, hheightVal⟩ := structPackU_ok hheight
  obtain ⟨hlen8, htargetVal⟩ := structPackU_ok htarget
  refine ⟨r1, r2, hplain1, hplain2, ?_⟩
  unfold fromV1Script
  simp only [List.append_assoc, List.cons_append]
  rw [← List.cons_append, show (0x04 : UInt8) = UInt8.ofNat 4 from rfl,
    reads_fixed hlen4, ok_bind]
  dsimp only
  rw [← List.cons_append, reads_ref hlen1 hread1, ok_bind]
  dsimp only
  rw [← List.cons_append, reads_ref hlen2 hread2, ok_bind]
  dsimp only
  rw [reads_pushMinimal hmax, ok_bind]
  dsimp only
  rw [reads_pushMinimal hreward, ok_bind]
  dsimp only
  rw [← List.cons_append, show (0x08 : UInt8) = UInt8.ofNat 8 from rfl,
    reads_fixed hlen8, ok_bind]
  dsimp only
  rw [matchV1Epilogue_code, hheightVal, htargetVal]
  rfl

/-- **A V1 script is not read as V2**: the separator stands where the number of
the retarget mode should. -/
theorem fromV2Script_v1 {a : V1Args} (h : buildDmintV1StateScript a = .ok s) :
    Refused (fromV2Script (s ++ buildDmintV1CodeScript a.algo)) := by
  obtain ⟨height, contract, token, maxHeight, reward, target, rfl, hheight,
    hcontract, htoken, hmax,
    hreward, htarget⟩ := buildDmintV1StateScript_ok h
  obtain ⟨hlen1, r1, hread1, -⟩ := glyphRef_wire hcontract
  obtain ⟨hlen2, r2, hread2, -⟩ := glyphRef_wire htoken
  have hlen4 := (structPackU_ok hheight).1
  have hlen8 := (structPackU_ok htarget).1
  unfold fromV2Script fromV2ScriptWith
  simp only [List.append_assoc, List.cons_append]
  have hread4 := reads_direct (d := height) (by omega) (by omega)
  have hread8 := reads_direct (d := target) (by omega) (by omega)
  rw [hlen4] at hread4
  rw [hlen8] at hread8
  rw [← List.cons_append, show (0x04 : UInt8) = UInt8.ofNat 4 from rfl,
    hread4, ok_bind]
  dsimp only
  rw [← List.cons_append, reads_ref hlen1 hread1, ok_bind]
  dsimp only
  rw [← List.cons_append, reads_ref hlen2 hread2, ok_bind]
  dsimp only
  rw [reads_pushMinimal hmax, ok_bind]
  dsimp only
  rw [reads_pushMinimal hreward, ok_bind]
  dsimp only
  rw [← List.cons_append, show (0x08 : UInt8) = UInt8.ofNat 8 from rfl,
    hread8, ok_bind]
  dsimp only
  apply Refused.bind
  exact ⟨_, rfl⟩

end DmintState

/-! ## Read scripts -/

/-- A push that could not be shorter: of the opcodes for small numbers, and of
the data pushes with the encodings. -/
def isMinimalPush : Bytes → Bool
  | [] => false
  | [op] => op = 0x00 ∨ op = 0x4F ∨ (0x51 ≤ op ∧ op ≤ 0x60)
  | op :: data =>
    if op = 0x4C then 75 < (data.headD 0).toNat ∧ isMinimal data.tail = true
    else isMinimal data = true ∧ ¬ (data.length = 1 ∧
      (1 ≤ data.headD 0 ∧ data.headD 0 ≤ 16 ∨ data.headD 0 = 0x81))

/-- `_parse_script_int` of an integer that is minimally pushed. -/
def parseMinimalInt (c : Cursor) : Except PyErr (Int × Cursor) := do
  let (n, next) ← parseScriptInt c
  refuseIf (¬ isMinimalPush (c.rest.take (next.pos - c.pos)))
    "not minimally pushed"
  return (n, next)

section Canonical

variable {c next : Cursor} {n : Int}

/-- Minimal data is what `push_minimal` writes for its number. -/
theorem pushMinimal_of_data {d : Bytes} (hmin : isMinimal d = true)
    (hpos : 1 ≤ d.length)
    (hlen : d.length ≤ 255)
    (hsmall : ¬ (d.length = 1 ∧ (1 ≤ d.headD 0 ∧ d.headD 0 ≤ 16 ∨
      d.headD 0 = 0x81))) :
    pushMinimal (decodeNum d) = .ok
      (if d.length < 0x4C then UInt8.ofNat d.length :: d
      else 0x4C :: UInt8.ofNat d.length :: d) := by
  have hnum := scriptNum_decodeNum hmin
  -- the numbers with an opcode of their own are ruled out first
  have h0 : decodeNum d ≠ 0 :=
    decodeNum_ne_zero hmin (List.ne_nil_of_length_pos hpos)
  have h1 : decodeNum d ≠ -1 := by
    intro h
    rw [h] at hnum
    have hd : d = [0x81] := hnum.symm
    exact hsmall (by rw [hd]; decide)
  have h16 : ¬ (1 ≤ decodeNum d ∧ decodeNum d ≤ 16) := by
    rintro ⟨hlo, hhi⟩
    have hall : ∀ k : Nat, k ≤ 16 → 1 ≤ k → (scriptNum k).length = 1 ∧
        (1 ≤ (scriptNum k).headD 0 ∧ (scriptNum k).headD 0 ≤ 16 ∨
          (scriptNum k).headD 0 = 0x81) := by
      decide
    obtain ⟨k, hk⟩ : ∃ k : Nat, decodeNum d = k :=
      ⟨(decodeNum d).toNat, by omega⟩
    rw [hk] at hnum
    have := hall k (by omega) (by omega)
    rw [hnum] at this
    exact hsmall this
  rw [pushMinimal, if_neg h0, if_neg h1, if_neg h16, hnum]
  dsimp only
  by_cases hshort : d.length < 0x4C
  · rw [if_pos hshort, if_pos hshort]
  · rw [if_neg hshort, if_neg hshort, if_pos hlen]

/-- **What is minimally pushed is what is written.** -/
theorem parseMinimalInt_ok (h : parseMinimalInt c = .ok (n, next)) :
    ∃ b, c.rest = b ++ next.rest ∧ pushMinimal n = .ok b := by
  unfold parseMinimalInt at h
  obtain ⟨⟨m, next'⟩, hread, h⟩ := bind_ok.mp h
  obtain ⟨hmin, h⟩ := refuseIf_bind_ok.mp h
  cases h
  rw [not_not] at hmin
  obtain ⟨pos, rest⟩ := c
  unfold parseScriptInt at hread
  dsimp only at hread hmin ⊢
  cases rest with
  | nil => cases hread
  | cons op rest =>
    dsimp only at hread
    have hwidth : ∀ k, (Cursor.advance ⟨pos, op :: rest⟩ k).pos - pos = k :=
        fun k =>
      Nat.add_sub_cancel_left pos k
    -- what was read is always a prefix, so only its encoding is left to compare
    have hsplit : ∀ k, op :: rest =
        (op :: rest).take k ++ (Cursor.advance ⟨pos, op :: rest⟩ k).rest :=
      fun k => (List.take_append_drop k _).symm
    split at hread
    · next h0 =>
      cases hread
      subst h0
      exact ⟨[0x00], rfl, rfl⟩
    · split at hread
      · next h1 =>
        cases hread
        subst h1
        exact ⟨[0x4F], rfl, rfl⟩
      · split at hread
        · next hop =>
          cases hread
          refine ⟨[op], rfl, ?_⟩
          have hlo : 81 ≤ op.toNat := hop.1
          have hhi : op.toNat ≤ 96 := hop.2
          have hback : UInt8.ofNat (0x50 + ((op.toNat : Int) - 0x50).toNat) =
              op := by
            rw [show 0x50 + ((op.toNat : Int) - 0x50).toNat =
              op.toNat by omega, UInt8.ofNat_toNat]
          rw [pushMinimal, if_neg (by omega), if_neg (by omega),
            if_pos (by omega), hback]
        · split at hread
          -- behind `OP_PUSHDATA1` the minimality test has ruled out 75 bytes or
          -- fewer
          · next hpush =>
            subst hpush
            cases rest with
            | nil => cases hread
            | cons len rest =>
              dsimp only at hread
              split at hread
              · cases hread
              · next hlen =>
                cases hread
                rw [not_not] at hlen
                refine ⟨_, hsplit _, ?_⟩
                have htake : (0x4C :: len :: rest).take (2 + len.toNat) =
                    0x4C :: len :: rest.take len.toNat := by
                  rw [Nat.add_comm, List.take_succ_cons, List.take_succ_cons]
                have hback :
                    UInt8.ofNat (rest.take len.toNat).length = len := by
                  rw [hlen, UInt8.ofNat_toNat]
                rw [hwidth, htake] at hmin
                have hfacts : 75 < len.toNat ∧
                    isMinimal (rest.take len.toNat) = true := by
                  simpa [isMinimalPush] using hmin
                have hlt := len.toNat_lt
                rw [htake, decodeScriptLeInt_eq,
                  pushMinimal_of_data hfacts.2 (by omega) (by omega)
                  (by omega), if_neg (by omega), hback]
          · split at hread
            -- a direct push: the test has ruled out the numbers with an opcode
            · next hdirect =>
              split at hread
              · cases hread
              · next hpush hlen =>
                cases hread
                rw [not_not] at hlen
                refine ⟨_, hsplit _, ?_⟩
                have hlo : 1 ≤ op.toNat := hdirect.1
                have hhi : op.toNat ≤ 75 := hdirect.2
                have htake : (op :: rest).take (1 + op.toNat) =
                    op :: rest.take op.toNat := by
                  rw [Nat.add_comm, List.take_succ_cons]
                have hback : UInt8.ofNat (rest.take op.toNat).length = op := by
                  rw [hlen, UInt8.ofNat_toNat]
                rw [hwidth, htake] at hmin
                obtain ⟨x, d, hd⟩ : ∃ x d, rest.take op.toNat = x :: d :=
                  List.exists_cons_of_ne_nil (List.ne_nil_of_length_pos
                    (by omega))
                have hfacts : isMinimal (rest.take op.toNat) = true ∧
                    ¬ ((rest.take op.toNat).length = 1 ∧
                    (1 ≤ (rest.take op.toNat).headD 0 ∧
                      (rest.take op.toNat).headD 0 ≤ 16 ∨
                      (rest.take op.toNat).headD 0 = 0x81)) := by
                  rw [hd] at hmin ⊢
                  unfold isMinimalPush at hmin
                  dsimp only at hmin
                  rw [if_neg hpush] at hmin
                  exact of_decide_eq_true hmin
                rw [htake, decodeScriptLeInt_eq,
                  pushMinimal_of_data hfacts.1 (by omega) (by omega)
                  hfacts.2, if_pos (by omega), hback]
            · cases hread

/-- A reference the parser accepts stood there behind its opcode. -/
theorem parseRef_ok {opcode : UInt8} {expected truncated : String}
    {r : GlyphRef}
    (h : parseRef opcode expected truncated c = .ok (r, next)) :
    ∃ data, c.rest = opcode :: data ++ next.rest ∧ r.toBytes = .ok data := by
  obtain ⟨pos, rest⟩ := c
  unfold parseRef at h
  obtain ⟨hhead, h⟩ := refuseIf_bind_ok.mp h
  obtain ⟨-, h⟩ := refuseIf_bind_ok.mp h
  obtain ⟨r', hr, h⟩ := bind_ok.mp h
  cases h
  rw [not_not] at hhead
  cases rest with
  | nil => cases hhead
  | cons op rest =>
    cases hhead
    refine ⟨rest.take 36, ?_, Swap.GlyphRef.Spelled.toBytes hr⟩
    show opcode :: rest = opcode :: rest.take 36 ++ rest.drop 36
    rw [List.cons_append, List.take_append_drop]

theorem parseFixed_ok {k m : Nat} {expected truncated : String}
    (h : parseFixed k expected truncated c = .ok (m, next)) :
    ∃ b, c.rest = UInt8.ofNat k :: b ++ next.rest ∧
    structPackU k m = .ok b := by
  obtain ⟨pos, rest⟩ := c
  unfold parseFixed at h
  obtain ⟨hhead, h⟩ := refuseIf_bind_ok.mp h
  obtain ⟨hlen, h⟩ := refuseIf_bind_ok.mp h
  cases h
  rw [not_not] at hhead
  dsimp only at hhead hlen ⊢
  cases rest with
  | nil => cases hhead
  | cons op rest =>
    cases hhead
    have htake : (rest.take k).length = k := by
      rw [List.length_cons] at hlen
      rw [List.length_take]
      omega
    have hlt : leNat (rest.take k) < 256 ^ k := by
      have := leNat_lt (rest.take k)
      rwa [htake] at this
    refine ⟨rest.take k, ?_, ?_⟩
    · show UInt8.ofNat k :: rest = UInt8.ofNat k :: rest.take k ++ rest.drop k
      rw [List.cons_append, List.take_append_drop]
    · show structPackU k (leNat (rest.take k)) = _
      have hcast : ((256 ^ k : Nat) : Int) = 256 ^ k := by push_cast; rfl
      have hback : leBytes k (leNat (rest.take k)) = rest.take k := by
        have := leBytes_leNat (rest.take k)
        rwa [htake] at this
      rw [structPackU, if_pos ⟨by omega, by omega⟩, Int.toNat_natCast, hback]

/-- A separator check that passes found the separator. -/
theorem checkSeparator_ok (h : DmintState.checkSeparator c = .ok ()) :
    ∃ code, c.rest = opStateSeparator :: code := by
  unfold DmintState.checkSeparator at h
  split at h
  · cases h
  · next op code hrest =>
    have hop := not_not.mp (refuseIf_ok.mp h)
    exact ⟨code, by rw [hrest, hop]⟩

/-- A named enum value was found in its table. -/
theorem enumOf_ok {α : Type} {what : String} {m : Int} {x : Option α} {a : α}
    (h : DmintState.enumOf what m x = .ok a) : x = some a := by
  cases x with
  | none => cases h
  | some b =>
    cases h
    rfl

end Canonical

namespace DmintState

variable {script : Bytes} {st : DmintState}

/-- **A state whose integers are minimally pushed is written as it was
read.** -/
theorem v2StateScriptBytes_read
    (h : fromV2ScriptWith parseMinimalInt script = .ok st) :
    ∃ pre code, script = pre ++ opStateSeparator :: code ∧
    st.v2StateScriptBytes = .ok pre := by
  unfold fromV2ScriptWith at h
  obtain ⟨⟨height, c0⟩, hheight, h⟩ := bind_ok.mp h
  obtain ⟨⟨contractRef, c1⟩, hcontract, h⟩ := bind_ok.mp h
  obtain ⟨⟨tokenRef, c2⟩, htoken, h⟩ := bind_ok.mp h
  obtain ⟨⟨maxHeight, c3⟩, hmax, h⟩ := bind_ok.mp h
  obtain ⟨⟨reward, c4⟩, hreward, h⟩ := bind_ok.mp h
  obtain ⟨⟨algoId, c5⟩, halgo, h⟩ := bind_ok.mp h
  obtain ⟨⟨daaId, c6⟩, hdaa, h⟩ := bind_ok.mp h
  obtain ⟨⟨targetTime, c7⟩, htime, h⟩ := bind_ok.mp h
  obtain ⟨⟨lastTime, c8⟩, hlast, h⟩ := bind_ok.mp h
  obtain ⟨⟨target, c9⟩, htarget, h⟩ := bind_ok.mp h
  obtain ⟨⟨⟩, hsep, h⟩ := bind_ok.mp h
  obtain ⟨algo, halgoId, h⟩ := bind_ok.mp h
  obtain ⟨daaMode, hdaaId, h⟩ := bind_ok.mp h
  cases h
  obtain ⟨b0, hb0, hw0⟩ := parseMinimalInt_ok hheight
  obtain ⟨b1, hb1, hw1⟩ := parseRef_ok hcontract
  obtain ⟨b2, hb2, hw2⟩ := parseRef_ok htoken
  obtain ⟨b3, hb3, hw3⟩ := parseMinimalInt_ok hmax
  obtain ⟨b4, hb4, hw4⟩ := parseMinimalInt_ok hreward
  obtain ⟨b5, hb5, hw5⟩ := parseMinimalInt_ok halgo
  obtain ⟨b6, hb6, hw6⟩ := parseMinimalInt_ok hdaa
  obtain ⟨b7, hb7, hw7⟩ := parseMinimalInt_ok htime
  obtain ⟨b8, hb8, hw8⟩ := parseFixed_ok hlast
  obtain ⟨b9, hb9, hw9⟩ := parseMinimalInt_ok htarget
  obtain ⟨code, hcode⟩ := checkSeparator_ok hsep
  have hscript : script =
      b0 ++ (0xD8 :: b1 ++ (0xD0 :: b2 ++ (b3 ++ (b4 ++ (b5 ++ (b6 ++ (b7 ++
      (0x04 :: b8 ++ (b9 ++ opStateSeparator :: code))))))))) := by
    have hstart : script = b0 ++ c0.rest := hb0
    rw [hstart, hb1, hb2, hb3, hb4, hb5, hb6, hb7, hb8, hb9, hcode]
    rfl
  rw [← DmintAlgo.value_of_ofValue (enumOf_ok halgoId)] at hw5
  rw [← DaaMode.value_of_ofValue (enumOf_ok hdaaId)] at hw6
  refine ⟨b0 ++ (0xD8 :: b1 ++ (0xD0 :: b2 ++ (b3 ++ (b4 ++ (b5 ++ (b6 ++ (b7 ++
      (0x04 :: b8 ++ b9)))))))), code, ?_, ?_⟩
  · rw [hscript]
    simp only [List.append_assoc, List.cons_append]
  · unfold v2StateScriptBytes middleLiteral refPushes push4bytesLe
    simp only [hw0, hw1, hw2, hw3, hw4, hw5, hw6, hw7, hw8, hw9,
      ok_bind, pure_eq_ok]
    simp only [List.append_assoc, List.cons_append]

/-- The script is accepted as V2, and every integer of its state is minimally
pushed. -/
def MinimallyPushed (script : Bytes) : Prop :=
  ∃ st, fromV2ScriptWith parseMinimalInt script = .ok st

/-- The minimal reader reads what the plain one reads. -/
theorem parseMinimalInt_parses {c : Cursor} {r : Int × Cursor}
    (h : parseMinimalInt c = .ok r) :
    parseScriptInt c = .ok r := by
  unfold parseMinimalInt at h
  obtain ⟨⟨n, next⟩, hread, h⟩ := bind_ok.mp h
  obtain ⟨-, h⟩ := refuseIf_bind_ok.mp h
  cases h
  exact hread

/-- Demanding minimal pushes changes nothing else. -/
theorem fromV2Script_of_minimal
    (h : fromV2ScriptWith parseMinimalInt script = .ok st) :
    fromV2Script script = .ok st := by
  unfold fromV2Script
  unfold fromV2ScriptWith at h ⊢
  simp only [bind_ok] at h ⊢
  obtain ⟨⟨height, c0⟩, hheight, ⟨contractRef, c1⟩, hcontract, ⟨tokenRef, c2⟩,
    htoken, ⟨maxHeight, c3⟩,
    hmax, ⟨reward, c4⟩, hreward, ⟨algoId, c5⟩, halgo, ⟨daaId, c6⟩, hdaa,
      ⟨targetTime, c7⟩, htime,
    ⟨lastTime, c8⟩, hlast, ⟨target, c9⟩, htarget, h⟩ := h
  exact ⟨_, parseMinimalInt_parses hheight, _, hcontract, _, htoken,
    _, parseMinimalInt_parses hmax, _, parseMinimalInt_parses hreward,
    _, parseMinimalInt_parses halgo, _, parseMinimalInt_parses hdaa,
    _, parseMinimalInt_parses htime, _, hlast, _,
    parseMinimalInt_parses htarget, h⟩

end DmintState

/-! ## The round trip -/

section Main

open DmintState

variable {script : Bytes}

/-- A contract is its state script, the separator and the code. -/
theorem buildDmintContractScript_ok {params : DmintDeployParams}
    (h : params.buildDmintContractScript = .ok script) :
    ∃ s code, params.initialState.v2StateScriptBytes = .ok s ∧
    script = s ++ opStateSeparator :: code := by
  obtain ⟨s, hs, h⟩ := bind_ok.mp h
  obtain ⟨code, -, h⟩ := bind_ok.mp h
  cases h
  exact ⟨s, code, hs, by rw [List.append_assoc]; rfl⟩

/-- Two states that differ in their references only. -/
theorem withRefs_eq {st : DmintState} {r1 r2 : GlyphRef} :
    { st with contractRef := r1, tokenRef := r2 } = st ↔
    r1 = st.contractRef ∧ r2 = st.tokenRef := by
  obtain ⟨height, contractRef, tokenRef, maxHeight, reward, algo, daaMode,
    targetTime, lastTime, target,
    isV1⟩ := st
  rw [DmintState.mk.injEq]
  constructor
  · rintro ⟨-, h1, h2, -⟩
    exact ⟨h1, h2⟩
  · rintro ⟨h1, h2⟩
    exact ⟨rfl, h1, h2, rfl, rfl, rfl, rfl, rfl, rfl, rfl, rfl⟩

/-- What the reader makes of a V2 script: the parameters, if it is spelled
`plain`; and nothing else than a V2 contract in any case. -/
structure ReadAsV2 (params : DmintDeployParams) (script : Bytes) : Prop where
  exact_iff : fromScript script = .ok params.initialState ↔
    PlainRef params.contractRef ∧ PlainRef params.tokenRef
  isV2 : ∃ st, fromScript script = .ok st ∧ st.isV1 = false
  notV1 : Refused (fromV1Script script)

/-- How the parser reads a version 2 contract. -/
theorem readAsV2 {params : DmintDeployParams}
    (h : params.buildDmintContractScript = .ok script) :
    ReadAsV2 params script := by
  obtain ⟨s, code, hs, rfl⟩ := buildDmintContractScript_ok h
  obtain ⟨r1, r2, hplain1, hplain2, hread⟩ := fromV2Script_written hs rfl
  have hscript : fromScript (s ++ opStateSeparator :: code) =
      .ok { params.initialState with contractRef := r1, tokenRef := r2 } := by
    rw [fromScript, hread]
  refine ⟨?_, ⟨_, hscript, rfl⟩, fromV1Script_v2 hs code⟩
  rw [hscript, Except.ok.injEq, withRefs_eq]
  exact and_congr hplain1 hplain2

/-- What the reader makes of a V1 script. -/
structure ReadAsV1 (a : V1Args) (script : Bytes) : Prop where
  exact_iff : fromScript script = .ok a.state ↔ PlainRef a.contractRef ∧
    PlainRef a.tokenRef
  isV1 : ∃ st, fromScript script = .ok st ∧ st.isV1 = true
  notV2 : Refused (fromV2Script script)

/-- How it reads a version 1 contract. -/
theorem readAsV1 {a : V1Args} (h : buildDmintV1ContractScript a = .ok script) : ReadAsV1 a script := by
  obtain ⟨s, hs, h⟩ := bind_ok.mp h
  cases h
  obtain ⟨r1, r2, hplain1, hplain2, hread⟩ := fromV1Script_written hs
  have hv2 := fromV2Script_v1 hs
  have hscript : fromScript (s ++ buildDmintV1CodeScript a.algo) =
      .ok { a.state with contractRef := r1, tokenRef := r2 } := by
    obtain ⟨m, hm⟩ := hv2
    rw [fromScript, hm, hread]
  refine ⟨?_, ⟨_, hscript, rfl⟩, hv2⟩
  rw [hscript, Except.ok.injEq, withRefs_eq]
  exact and_congr hplain1 hplain2

/-- **Scripts and states.** A built script is read back as exactly what it was
built for just when both its refs are spelled in 64 characters; it is never
taken for the other version; and an accepted V2 script with minimally pushed
integers is, up to its separator, what `_v2_state_script_bytes` writes for the
state that was read. -/
theorem dmint_round_trip_iff (params : DmintDeployParams)
    (a : V1Args) (script : Bytes) :
    (params.buildDmintContractScript = .ok script → ReadAsV2 params script) ∧
    (buildDmintV1ContractScript a = .ok script → ReadAsV1 a script) ∧
    (∀ st, fromV2Script script = .ok st → MinimallyPushed script →
      ∃ pre code, script = pre ++ opStateSeparator :: code ∧
        st.v2StateScriptBytes = .ok pre) := by
  refine ⟨readAsV2, readAsV1, ?_⟩
  rintro st hst ⟨st', hst'⟩
  have hsame := fromV2Script_of_minimal hst'
  rw [hst] at hsame
  cases hsame
  exact v2StateScriptBytes_read hst'

end Main

/-- A deployment with these refs. -/
def sampleDeploy (contractRef tokenRef : GlyphRef) : DmintDeployParams where
  contractRef
  tokenRef
  maxHeight := 100
  reward := 1000
  difficulty := 10
  algo := .sha256d
  daaMode := .fixed
  targetTime := 60
  halfLife := 240
  height := 0
  lastTime := 0
  epochLength := 2016
  maxAdjustmentLog2 := 2
  schedule := []
  accepted := rfl

/-- The sample deployment is built for any references. -/
theorem sampleDeploy_builds (contractRef tokenRef : GlyphRef) :
    ∃ script, (sampleDeploy contractRef tokenRef).buildDmintContractScript =
      .ok script := by
  obtain ⟨contract, -, hcontract, hlen1, -⟩ := glyphRef_reread contractRef
  obtain ⟨token, -, htoken, hlen2, -⟩ := glyphRef_reread tokenRef
  obtain ⟨target, htarget⟩ : ∃ b, pushMinimal (maxSha256dTarget.fdiv 10) =
      .ok b := ⟨_, rfl⟩
  have hmax : pushMinimal 100 = .ok [0x01, 0x64] := rfl
  have hreward : pushMinimal 1000 = .ok [0x02, 0xE8, 0x03] := rfl
  have hzero : pushMinimal 0 = .ok [0x00] := rfl
  have htime : pushMinimal 60 = .ok [0x01, 0x3C] := rfl
  have hmiddle : middleLiteral contractRef tokenRef 100 1000
      .sha256d .fixed 60 =
      .ok (0xD8 :: contract ++ (0xD0 :: token) ++ [0x01, 0x64] ++
        [0x02, 0xE8, 0x03] ++ [0x00] ++ [0x00] ++
        [0x01, 0x3C]) := by
    unfold middleLiteral refPushes DmintAlgo.value DaaMode.value
    simp only [hcontract, htoken, hmax, hreward, hzero, htime,
      ok_bind, pure_eq_ok]
  have hlen : (0xD8 :: contract ++ (0xD0 :: token) ++ [0x01, 0x64] ++
      [0x02, 0xE8, 0x03] ++ [0x00] ++
      [0x00] ++ [0x01, 0x3C] : Bytes).length = 83 := by
    simp only [List.length_append, List.length_cons,
      List.length_nil, hlen1, hlen2]
  generalize 0xD8 :: contract ++ (0xD0 :: token) ++ [0x01, 0x64] ++
    [0x02, 0xE8, 0x03] ++ [0x00] ++
      [0x00] ++ [0x01, 0x3C] = middle at hmiddle hlen
  have hpush : encodeDataPush middle =
      .ok (0x4C :: UInt8.ofNat middle.length :: middle) := by
    rw [encodeDataPush, if_neg (by omega), if_pos (by omega)]
  have hstate : (sampleDeploy contractRef tokenRef).buildDmintStateScript =
      .ok ([0x00] ++ middle ++ [0x04, 0x00, 0x00, 0x00, 0x00] ++ target) := by
    show (do
      let height ← pushMinimal 0
      let middle ← middleLiteral contractRef tokenRef 100 1000
        .sha256d .fixed 60
      let lastTime ← push4bytesLe 0
      let target ← pushMinimal (maxSha256dTarget.fdiv 10)
      return height ++ middle ++ lastTime ++ target) = _
    rw [hzero, hmiddle, htarget]
    rfl
  obtain ⟨code, hcode⟩ : ∃ code,
      (sampleDeploy contractRef tokenRef).buildDmintCodeScript = .ok code := by
    refine ⟨partA ++ [0xAA] ++ (partB1 ++ partB2 ++ [] ++ partB4) ++
      (partCPrologue ++ partCIf ++ [0x67] ++ partCElse (0x4C ::
      UInt8.ofNat middle.length :: middle) ++ [0x68, 0x6D, 0x75, 0x51]), ?_⟩
    show (do
      let partB ← buildPartB none
      let middle ← middleLiteral contractRef tokenRef 100 1000
        .sha256d .fixed 60
      let partC ← buildPartC middle
      return partA ++ [0xAA] ++ partB ++ partC) = _
    rw [hmiddle]
    simp only [buildPartB, buildPartC, hpush, ok_bind, pure_eq_ok]
  rw [DmintDeployParams.buildDmintContractScript, hstate, hcode]
  exact ⟨_, rfl⟩

def sampleTxid : Bytes := List.replicate 32 0xAB

def plainSampleRef : GlyphRef :=
  ⟨hex sampleTxid, 1, Swap.isTxid_hex rfl, by decide⟩

/-- The same txid, with a line feed behind it. -/
def lineFeedRef : GlyphRef where
  txid := String.ofList (hexChars sampleTxid ++ ['\n'])
  vout := 1
  ofTxid := by
    rw [isTxid, String.toList_ofList]
    decide
  ofVout := by decide

/-- A contract deployed under that ref is read back under another. -/
theorem dmint_line_feed_lost : ∃ script,
    (sampleDeploy lineFeedRef plainSampleRef).buildDmintContractScript =
      .ok script ∧
    DmintState.fromScript script ≠ .ok
      (sampleDeploy lineFeedRef plainSampleRef).initialState := by
  obtain ⟨script, h⟩ := sampleDeploy_builds lineFeedRef plainSampleRef
  refine ⟨script, h, ?_⟩
  intro hread
  have hplain := ((readAsV2 h).exact_iff.mp hread).1
  have hlen : lineFeedRef.txid.length = 65 := by
    rw [← String.length_toList, lineFeedRef, String.toList_ofList,
      List.length_append,
      length_hexChars]
    rfl
  have h64 : lineFeedRef.txid.length = 64 := hplain
  omega

/-- The sample reference is plain. -/
theorem plainSampleRef_plain : PlainRef plainSampleRef := by
  show (hex sampleTxid).length = 64
  rw [← String.length_toList, hex, String.toList_ofList, length_hexChars]
  rfl

/-- The statement at the sample deployment. -/
theorem dmint_round_trip_sample : ∃ script,
    (sampleDeploy plainSampleRef plainSampleRef).buildDmintContractScript =
      .ok script ∧
    DmintState.fromScript script = .ok
      (sampleDeploy plainSampleRef plainSampleRef).initialState := by
  obtain ⟨script, h⟩ := sampleDeploy_builds plainSampleRef plainSampleRef
  have hread :=
    (dmint_round_trip_iff (sampleDeploy plainSampleRef plainSampleRef)
    ⟨0, plainSampleRef, plainSampleRef, 1, 1, 1, .sha256d⟩ script).1 h
  exact ⟨script, h, hread.exact_iff.mpr ⟨plainSampleRef_plain,
    plainSampleRef_plain⟩⟩

end Pyrxd.Glyph
