import Mathlib.Tactic.IntervalCases
import Pyrxd.Btc.Htlc
import Pyrxd.Btc.WalkersAgree
import Pyrxd.Lib.ScriptVm

/-!
# Spending the HTLC

What the spend builders write, the readers of the other side read: a claim
transaction gives up the preimage and names the funding outpoint, a refund
transaction waits for what its leaf demands and gives up nothing, and each leaf
opens the output through its control block.

The main theorem, `htlc_spendable_iff`, says for which outpoints that is so. A
`BtcOutpoint` is 64 characters that `bytes.fromhex` accepts, and `bytes.fromhex`
skips white space: with a blank in the txid the outpoint is no longer 36 bytes
and the transaction no transaction.
-/

namespace Pyrxd.Btc

open Pyrxd.Lib

/-! ## Statements -/

/-- The number a token leaves on the stack, as `OP_CSV` reads it: at most five
bytes. -/
def csvNumber : Token → Option Int
  | .push data => if 5 < data.length then none else readNum true data
  | .op code =>
    match opKind code with
    | .const n => some n
    | _ => none

/-- The operand of the `OP_CSV` a script starts with. -/
def csvOperand (script : Bytes) : Option Int :=
  match tokenize script.length script with
  | some (t :: .op 0xB2 :: _) => csvNumber t
  | _ => none

/-- A claim transaction gives up the preimage and names the funding outpoint. -/
structure ClaimReveals (o : BtcOutpoint) (hashlock p tx : Bytes) : Prop where
  scraped : scrapeSecret tx hashlock = .ok p
  outpoint : ∃ prevout, o.prevoutBytes = .ok prevout ∧
    btcInputOutpointsFromRaw tx = .ok [prevout]

/-- A refund transaction spends the funding outpoint alone, after the delay its
leaf demands, with the lock enabled; and none of its witness items is the
preimage. -/
structure RefundWaits (locator : BtcHtlcLocator)
    (hashlock tx : Bytes) : Prop where
  spends : ∃ prevout sequence fields,
    locator.fundingOutpoint.prevoutBytes = .ok prevout ∧
    btcSpendFieldsFromRaw tx = .ok fields ∧ fields.inputPrevouts = [prevout] ∧
    fields.inputSequences = [sequence] ∧
    csvOperand locator.scriptTree.refundScript = some (sequence : Int) ∧
    sequence.testBit 31 = false
  hidden : ∀ stack ∈ iterWitnessStack tx, ∀ push ∈
    stack, sha256 push = hashlock →
    -- two strings, one digest
    ∀ p : Bytes, p.length = 32 → sha256 p = hashlock → push ≠ p

/-- BIP341's check of a script-path spend: the leaf hashed with the sibling in
the control block is the root, and the internal key in the control block,
tweaked by it, is the output key, with the parity the control block says. -/
def LeafOpens (ec : Coincurve) (locator : BtcHtlcLocator)
    (script control : Bytes) : Prop :=
  ∃ first leafHash root key, control.head? = some first ∧
    tapleafHash script (first.toNat &&& 0xFE : Nat) = .ok leafHash ∧
    tapbranchHash leafHash (control.drop 33) = .ok root ∧
    locator.scriptTree.merkleRoot = .ok root ∧
    taprootTweakPoint ec ((control.drop 1).take 32) root = .ok (key,
      (first.toNat &&& 1 : Nat)) ∧
      locator.scriptpubkey ec = .ok ([0x51, 0x20] ++ key)

/-- Both ways out of the HTLC work. -/
structure HtlcSpendable (ec : Coincurve) (hashlock : Bytes) (timeout : Timelock)
    (locator : BtcHtlcLocator) : Prop where
  claim : ∀ p sk dest fee aux tx, sha256 p = hashlock →
    buildClaimTx ec locator p sk dest fee aux = .ok tx →
    ClaimReveals locator.fundingOutpoint hashlock p tx
  refund : ∀ sk dest fee aux tx,
    buildRefundTx ec locator sk timeout dest fee aux = .ok tx →
    RefundWaits locator hashlock tx
  opens : ∀ leaf, LeafOpens ec locator (locator.scriptTree.scriptFor leaf)
    (locator.controlFor leaf)

/-! ## Encoders -/

/-- `struct.pack` refuses a number out of range and otherwise writes its low
bytes. -/
theorem structPack_ok {lo hi x : Int} {k : Nat} {b : Bytes} :
    structPack lo hi k x = .ok b ↔ (lo ≤ x ∧ x < hi) ∧
    b = leBytes k (x % 256 ^ k).toNat := by
  unfold structPack
  by_cases h : lo ≤ x ∧ x < hi
  · rw [if_pos h, Except.ok.injEq]
    exact ⟨fun he => ⟨h, he.symm⟩, fun he => he.2.symm⟩
  · rw [if_neg h]
    exact ⟨nofun, fun he => absurd he.1 h⟩

/-- A packed number has the width of its format. -/
theorem length_structPack {lo hi x : Int} {k : Nat} {b : Bytes}
    (h : structPack lo hi k x = .ok b) :
    b.length = k := by
  rw [(structPack_ok.mp h).2, length_leBytes]

/-- An unsigned field holds its number. -/
theorem leNat_packU32 {n : Nat} {b : Bytes} (h : packU32 n = .ok b) :
    leNat b = n := by
  obtain ⟨⟨-, hn⟩, rfl⟩ := structPack_ok.mp h
  have hlt : n < 256 ^ 4 := by omega
  have hmod : ((n : Int) % 256 ^ 4).toNat = n := by omega
  rw [hmod, leNat_leBytes hlt]

/-- The length check of a byte-string argument. -/
theorem asBytes_ok {b : Bytes} {name : String} {n : Nat} {u : Unit} :
    asBytes b name n = .ok u ↔ b.length = n := by
  unfold asBytes
  rw [refuseIf_ok, Decidable.not_not]

/-- A compact size is written below `2^64`. -/
theorem compactSize_ok {n : Nat} {b : Bytes} :
    compactSize n = .ok b ↔ n < 256 ^ 8 ∧ b = compactBytes n := by
  unfold compactSize
  by_cases h : n < 256 ^ 8
  · rw [if_pos h, Except.ok.injEq]
    exact ⟨fun he => ⟨h, he.symm⟩, fun he => he.2.symm⟩
  · rw [if_neg h]
    exact ⟨nofun, fun he => absurd he.1 h⟩

/-- A sized string is a blob. -/
theorem sized_ok {b s : Bytes} : sized b = .ok s ↔
    ∃ h : b.length < 256 ^ 8, s = (Blob.ofBytes b h).bytes := by
  simp only [sized, bind_ok, compactSize_ok, pure_eq_ok, Except.ok.injEq]
  constructor
  · intro h
    obtain ⟨size, ⟨hlt, rfl⟩, rfl⟩ := h
    exact ⟨hlt, rfl⟩
  · intro h
    obtain ⟨hlt, rfl⟩ := h
    exact ⟨_, ⟨hlt, rfl⟩, rfl⟩

/-- An output is its amount followed by its sized script. -/
theorem packOutput_ok {o : Int × Bytes} {b : Bytes} : packOutput o = .ok b ↔
    ∃ amount script, packI64 o.1 = .ok amount ∧ sized o.2 = .ok script ∧
    b = amount ++ script := by
  simp only [packOutput, bind_ok, pure_eq_ok, Except.ok.injEq]
  constructor
  · intro h
    obtain ⟨amount, ha, script, hs, rfl⟩ := h
    exact ⟨amount, script, ha, hs, rfl⟩
  · intro h
    obtain ⟨amount, script, ha, hs, rfl⟩ := h
    exact ⟨amount, ha, script, hs, rfl⟩

/-- The witness items, as blobs. -/
theorem joinPieces_sized_ok {items : List Bytes} :
    ∀ {b : Bytes}, joinPieces sized items = .ok b →
    ∃ blobs : List Blob, blobs.map (·.data) = items ∧
    b = blobs.flatMap Blob.bytes := by
  induction items with
  | nil =>
    intro b h
    rw [joinPieces, List.mapM_nil, pure_eq_ok, ok_bind, pure_eq_ok,
      Except.ok.injEq] at h
    exact ⟨[], rfl, h.symm⟩
  | cons x items ih =>
    intro b h
    rw [joinPieces, List.mapM_cons, bind_ok] at h
    obtain ⟨pieces, hpieces, hb⟩ := h
    obtain ⟨s, hs, hpieces⟩ := bind_ok.mp hpieces
    obtain ⟨rest, hrest, hpieces⟩ := bind_ok.mp hpieces
    rw [pure_eq_ok, Except.ok.injEq] at hpieces hb
    subst hpieces hb
    obtain ⟨hlt, rfl⟩ := sized_ok.mp hs
    obtain ⟨blobs, hdata, hbytes⟩ :=
      ih (b := rest.flatten) (by rw [joinPieces, hrest]; rfl)
    refine ⟨Blob.ofBytes x hlt :: blobs, ?_, ?_⟩
    · rw [List.map_cons, hdata]
      rfl
    · rw [List.flatMap_cons, List.flatten_cons, hbytes]

/-! ## Spends -/

section Spend

variable {ec : Coincurve} {locator : BtcHtlcLocator} {items : List Bytes}
  {sk dest aux tx prevout : Bytes} {leaf : Leaf} {amount fee : Int}
  {sequence : Nat}

/-- The input of a spend: an outpoint, an empty script and the sequence
number. -/
def spendInput (prevout : Fixed 36) (sequence : Fixed 4) : WireRun WireIn where
  count := ⟨1, .one, by decide⟩
  items := [⟨prevout, ⟨⟨0, .one, by decide⟩, [], rfl⟩, sequence⟩]
  counted := rfl

def spendOutput (value : Fixed 8) (script : Blob) : WireRun WireOut where
  count := ⟨1, .one, by decide⟩
  items := [⟨value, script⟩]
  counted := rfl

/-- **A spend is a transaction** when its outpoint is one: the input, the
sequence number and the witness are read off it. -/
theorem buildSpendTx_wire (hec : ec.Bip340) (hitems : items.length ≤ 1)
    (hprevout : locator.fundingOutpoint.prevoutBytes = .ok prevout)
    (hlen : prevout.length = 36)
    (h : buildSpendTx ec locator items sk leaf dest amount sequence 0 aux =
      .ok tx) :
    ∃ (w : WireTx) (stack : WireStack) (sig : Bytes), tx = w.bytes ∧
    WireTx.Bounded w ∧
      w.outs.items ≠ [] ∧ w.ins.items.map (·.prevout.val) = [prevout] ∧
      w.ins.items.map (·.sequence.nat) = [sequence] ∧ w.witness = some [stack] ∧
      stack.items.map (·.data) =
        sig :: items ++ [locator.scriptTree.scriptFor leaf,
          locator.controlFor leaf] ∧
      sig.length = 64 := by
  unfold buildSpendTx at h
  rw [hprevout, ok_bind] at h
  obtain ⟨spk, -, h⟩ := bind_ok.mp h
  obtain ⟨leafHash, -, h⟩ := bind_ok.mp h
  obtain ⟨sighash, -, h⟩ := bind_ok.mp h
  obtain ⟨sig, hsig, h⟩ := bind_ok.mp h
  obtain ⟨version, hversion, h⟩ := bind_ok.mp h
  obtain ⟨lock, hlock, h⟩ := bind_ok.mp h
  obtain ⟨seq, hseq, h⟩ := bind_ok.mp h
  obtain ⟨out, hout, h⟩ := bind_ok.mp h
  obtain ⟨wit, hwit, h⟩ := bind_ok.mp h
  cases h
  -- every witness item is short, so each is sized in its canonical form
  have hsig64 : sig.length = 64 := by
    simp only [signSchnorr, bind_ok] at hsig
    obtain ⟨-, -, -, -, -, -, hsig⟩ := hsig
    exact hec.signature _ _ _ _ hsig
  obtain ⟨value, script, hvalue, hscript, rfl⟩ := packOutput_ok.mp hout
  obtain ⟨hdest, rfl⟩ := sized_ok.mp hscript
  simp only [serializeWitness, bind_ok, pure_eq_ok, Except.ok.injEq] at hwit
  obtain ⟨count, hcount, body, hbody, rfl⟩ := hwit
  obtain ⟨hcountlt, rfl⟩ := compactSize_ok.mp hcount
  obtain ⟨blobs, hdata, rfl⟩ := joinPieces_sized_ok hbody
  have hblobs : blobs.length =
      (sig :: items ++ [locator.scriptTree.scriptFor leaf,
      locator.controlFor leaf]).length := by
    rw [← hdata, List.length_map]
  have hone : 1 ≤ 100000 := by decide
  let stack : WireStack := ⟨Compact.ofNat _ hcountlt, blobs, hblobs⟩
  let w : WireTx := ⟨⟨version, length_structPack hversion⟩,
    spendInput ⟨prevout, hlen⟩ ⟨seq, length_structPack hseq⟩,
    spendOutput ⟨value, length_structPack hvalue⟩ (Blob.ofBytes dest hdest),
      some [stack],
    ⟨lock, length_structPack hlock⟩, by rintro wits ⟨⟩; rfl⟩
  refine ⟨w, stack, sig, ?_, ⟨Nat.one_ne_zero, hone, hone, ?_⟩,
    List.cons_ne_nil _ _, rfl, ?_, rfl,
    hdata, hsig64⟩
  · rw [WireTx.bytes_some (w := w) rfl]
    show _ = version ++ ([0x00, 0x01] ++
      (([0x01] ++ ((prevout ++ ([0x00] ++ []) ++ seq) ++ [])) ++
      (([0x01] ++ ((value ++ (Blob.ofBytes dest hdest).bytes) ++ [])) ++
      (((compactBytes _ ++ blobs.flatMap Blob.bytes) ++ []) ++ lock))))
    simp only [List.append_assoc, List.append_nil]
  · intro wits hwits s hs
    cases hwits
    rw [List.mem_singleton.mp hs]
    show (sig :: items ++ [locator.scriptTree.scriptFor leaf,
      locator.controlFor leaf]).length ≤ 100000
    simp only [List.length_append, List.length_cons, List.length_nil]
    omega
  · show [leNat seq] = [sequence]
    rw [leNat_packU32 hseq]

/-- What is spent had an outpoint and an amount that can be packed. -/
theorem buildSpendTx_packs
    (h : buildSpendTx ec locator items sk leaf dest amount sequence 0 aux =
      .ok tx) :
    ∃ prevout, locator.fundingOutpoint.prevoutBytes = .ok prevout ∧
    locator.amountSats < 2 ^ 63 := by
  unfold buildSpendTx at h
  obtain ⟨prevout, hprevout, h⟩ := bind_ok.mp h
  obtain ⟨spk, -, h⟩ := bind_ok.mp h
  obtain ⟨leafHash, -, h⟩ := bind_ok.mp h
  obtain ⟨sighash, hsighash, -⟩ := bind_ok.mp h
  unfold taprootSighash at hsighash
  obtain ⟨-, h⟩ := refuseIf_bind_ok.mp hsighash
  obtain ⟨-, h⟩ := refuseIf_bind_ok.mp h
  obtain ⟨inputs, hinputs, -⟩ := bind_ok.mp h
  rw [sighashAllInputs, bind_ok] at hinputs
  obtain ⟨amounts, hamounts, -⟩ := hinputs
  obtain ⟨pieces, hpieces, -⟩ := bind_ok.mp hamounts
  rw [List.mapM_cons, bind_ok] at hpieces
  obtain ⟨amountB, hamountB, -⟩ := hpieces
  exact ⟨prevout, hprevout, (structPack_ok.mp hamountB).1.2⟩

/-- A claim that is built spent a packable outpoint and amount. -/
theorem claim_packs {p : Bytes}
    (h : buildClaimTx ec locator p sk dest fee aux = .ok tx) :
    ∃ prevout, locator.fundingOutpoint.prevoutBytes = .ok prevout ∧
    locator.amountSats < 2 ^ 63 := by
  unfold buildClaimTx at h
  obtain ⟨-, -, h⟩ := bind_ok.mp h
  obtain ⟨-, h⟩ := refuseIf_bind_ok.mp h
  obtain ⟨-, h⟩ := refuseIf_bind_ok.mp h
  have h : buildSpendTx ec locator [p] sk .claim dest (locator.amountSats - fee)
    ((0xFFFFFFFD : Nat) : Int) 0 aux = .ok tx := h
  exact buildSpendTx_packs h

theorem refund_packs {timeout : Timelock}
    (h : buildRefundTx ec locator sk timeout dest fee aux = .ok tx) :
    ∃ prevout, locator.fundingOutpoint.prevoutBytes = .ok prevout ∧
    locator.amountSats < 2 ^ 63 := by
  unfold buildRefundTx at h
  exact buildSpendTx_packs (refuseIf_bind_ok.mp h).2

end Spend

/-! ## Leaf scripts -/

/-- A short push is the single opcode of its length. -/
theorem pushData_short {data : Bytes} (h : data.length ≤ 75) :
    pushData data = .ok (Token.push data).bytes := by
  have hlt : data.length < 0x4C := by omega
  rw [pushData, Token.bytes, if_pos hlt]
  by_cases h0 : data.length = 0
  · rw [if_pos h0, List.length_eq_zero_iff.mp h0]
    rfl
  · rw [if_neg h0, if_pos h]

/-- A number below `2 ^ 24` has at most three bytes, and one for the sign. -/
theorem length_scriptNum_short {n : Nat} (h : n < 2 ^ 24) :
    (scriptNum n).length ≤ 4 := by
  apply (length_scriptNum_le n 3).mpr
  rw [Int.natAbs_natCast]
  omega

/-- The token `_push_minimal_int` writes. -/
def minimalToken (n : Nat) : Token :=
  if n = 0 then .push []
  else if n ≤ 16 then .op (UInt8.ofNat (0x50 + n))
  else .push (scriptNum n)

/-- The small number opcodes leave their number for the relative lock. -/
theorem csvNumber_op : ∀ n ≤ 16, n ≠ 0 → 0x4E < UInt8.ofNat (0x50 + n) ∧
    csvNumber (.op (UInt8.ofNat (0x50 + n))) = some (n : Int) := by
  intro n hn h0
  interval_cases n <;> first | exact absurd rfl h0 | exact ⟨by decide, rfl⟩

/-- The operand is written as one token and read back. -/
theorem pushMinimalInt_token {n : Nat} (h : n < 2 ^ 24) :
    pushMinimalInt n = .ok (minimalToken n).bytes ∧ (minimalToken n).Ok ∧
      csvNumber (minimalToken n) = some (n : Int) ∧
        (minimalToken n).bytes.length ≤ 5 := by
  have hneg : ¬ (n : Int) < 0 := by omega
  rw [pushMinimalInt, if_neg hneg, minimalToken]
  -- zero and the numbers up to 16 have opcodes, the rest is pushed
  by_cases h0 : n = 0
  · subst h0
    exact ⟨rfl, Nat.zero_le _, rfl, by decide⟩
  · rw [if_neg (by omega : ¬ (n : Int) = 0), if_neg h0]
    by_cases h16 : n ≤ 16
    · rw [if_pos (by omega : (1 : Int) ≤ n ∧ (n : Int) ≤ 16), if_pos h16]
      obtain ⟨hok, hnum⟩ := csvNumber_op n h16 h0
      exact ⟨rfl, hok, hnum, Nat.le_of_ble_eq_true rfl⟩
    · rw [if_neg (by omega : ¬ ((1 : Int) ≤ n ∧ (n : Int) ≤ 16)), if_neg h16]
      have hshort := length_scriptNum_short h
      have hout : (if 0x80 ≤ (magBytes (n : Int).toNat).getLastD 0 then
          magBytes (n : Int).toNat ++ [0x00] else magBytes (n : Int).toNat) = scriptNum n := by
        rw [Int.toNat_natCast, scriptNum, Int.natAbs_natCast]
        simp only [if_neg hneg]
        rw [List.getLastD_eq_getLast?]
        cases hlast : (magBytes n).getLast? with
        | none =>
          exact absurd
            (magBytes_eq_nil.mp (List.getLast?_eq_none_iff.mp hlast)) h0
        | some last => rfl
      simp only
      rw [hout, pushData_short (by omega)]
      refine ⟨rfl, ?_, ?_, ?_⟩
      · show (scriptNum n).length ≤ 0xFF
        omega
      · rw [csvNumber, if_neg (by omega)]
        exact readNum_scriptNum true (by constructor <;> omega)
      · rw [Token.bytes, if_pos (by omega), List.length_cons]
        omega

/-- A relative lock never sets the disable bit. -/
theorem toNsequence_lt (t : Timelock) : t.toNsequence < 2 ^ 24 ∧
    t.toNsequence.testBit 31 = false := by
  have hmask : ∀ v : Nat, v &&& sequenceLocktimeMask < 2 ^ 16 := fun v =>
    Nat.lt_of_le_of_lt Nat.and_le_right (by decide)
  have hlt : t.toNsequence < 2 ^ 24 := by
    unfold Timelock.toNsequence
    cases t.unit with
    | blocks => exact Nat.lt_trans (hmask _) (by decide)
    | seconds =>
      exact Nat.or_lt_two_pow (by decide) (Nat.lt_trans (hmask _) (by decide))
  exact ⟨hlt, Nat.testBit_lt_two_pow (Nat.lt_trans hlt (by decide))⟩

/-- The tokens of the refund leaf. -/
def refundTokens (timeout : Timelock) (pk : Bytes) : List Token :=
  [minimalToken timeout.toNsequence, .op 0xB2, .op 0x75, .push pk, .op 0xAC]

/-- **The delay is in the leaf.** The refund leaf starts with the sequence
number of its lock. -/
theorem refundLeafScript_ok {pk script : Bytes} {timeout : Timelock}
    (h : refundLeafScript pk timeout = .ok script) :
    csvOperand script = some (timeout.toNsequence : Int) ∧ 32 < script.length ∧
      script.length ≤ 41 := by
  obtain ⟨hwrite, hok, hnum, hlen⟩ :=
    pushMinimalInt_token (toNsequence_lt timeout).1
  rw [refundLeafScript, bind_ok] at h
  obtain ⟨u, hpk, h⟩ := h
  have hpk := asBytes_ok.mp hpk
  rw [Timelock.csvScriptOperand, hwrite, ok_bind, pushData_short (by omega),
    ok_bind, pure_eq_ok,
    Except.ok.injEq] at h
  have hpush : (Token.push pk).bytes = UInt8.ofNat pk.length :: pk := by
    rw [Token.bytes, if_pos (by omega)]
  -- the script is five tokens, of which the first is the lock
  have hassemble : script = assemble (refundTokens timeout pk) := by
    rw [← h]
    simp only [assemble, refundTokens, List.flatMap_cons, List.flatMap_nil,
      List.append_assoc,
      List.append_nil]
    rfl
  have htokens : ∀ t ∈ refundTokens timeout pk, t.Ok := by
    intro t ht
    simp only [refundTokens, List.mem_cons, List.not_mem_nil, or_false] at ht
    rcases ht with rfl | rfl | rfl | rfl | rfl
    · exact hok
    · decide
    · decide
    · show pk.length ≤ 0xFF
      omega
    · decide
  refine ⟨?_, ?_, ?_⟩
  · rw [csvOperand, hassemble, tokenize_assemble htokens (Nat.le_refl _)]
    exact hnum
  · rw [← h]
    simp only [hpush, List.length_append, List.length_cons, List.length_nil]
    omega
  · rw [← h]
    simp only [hpush, List.length_append, List.length_cons, List.length_nil]
    omega

/-! ## Control blocks -/

/-- A branch sorts its two children. -/
theorem tapbranchHash_comm (a b : Bytes) (ha : a.length = 32)
    (hb : b.length = 32) :
    tapbranchHash a b = tapbranchHash b a := by
  have hand : (if a ≤ b then a ++ b else b ++ a) = if b ≤ a then b ++ a
      else a ++ b := by
    by_cases hab : a ≤ b
    · by_cases hba : b ≤ a
      · rw [if_pos hab, if_pos hba, Std.le_antisymm hab hba]
      · rw [if_pos hab, if_neg hba]
    · have hba : b ≤ a := (Std.le_total (a := a) (b := b)).resolve_left hab
      rw [if_neg hab, if_pos hba]
  rw [tapbranchHash, tapbranchHash]
  simp only [asBytes, refuseIf, ha, hb, ne_eq, not_true, if_false,
    ok_bind, hand]

theorem length_taggedHash (tag : String) (msg : Bytes) :
    (taggedHash tag msg).length = 32 :=
  length_sha256 _

theorem length_tapleafHash {script leafHash : Bytes} {version : Int}
    (h : tapleafHash script version = .ok leafHash) : leafHash.length = 32 := by
  rw [tapleafHash, bind_ok] at h
  obtain ⟨v, -, h⟩ := h
  obtain ⟨s, -, h⟩ := bind_ok.mp h
  cases h
  exact length_taggedHash _ _

variable {ec : Coincurve}

/-- The tweaked point: 32 bytes, and a parity of 0 or 1. -/
theorem taprootTweakPoint_ok (hec : ec.Bip340) {ik root key : Bytes}
    {parity : Int}
    (h : taprootTweakPoint ec ik root = .ok (key, parity)) :
    key.length = 32 ∧ (parity = 0 ∨ parity = 1) := by
  unfold taprootTweakPoint at h
  obtain ⟨-, -, h⟩ := bind_ok.mp h
  obtain ⟨-, -, h⟩ := bind_ok.mp h
  obtain ⟨q, hq, h⟩ := bind_ok.mp h
  obtain ⟨x, hlen, hx⟩ := hec.point _ _ _ hq
  rcases hx with rfl | rfl
  · injection h with h
    injection h with hkey hparity
    exact ⟨hkey ▸ hlen, .inl hparity.symm⟩
  · injection h with h
    injection h with hkey hparity
    exact ⟨hkey ▸ hlen, .inr hparity.symm⟩

/-- What a control block says, byte for byte. -/
theorem controlBlock_ok (hec : ec.Bip340) {ik root sibling cb : Bytes}
    (h : controlBlock ec ik root sibling = .ok cb) :
    ∃ key first, cb = first :: (ik ++ sibling) ∧ ik.length = 32 ∧
    sibling.length = 32 ∧
      first.toNat &&& 0xFE = 0xC0 ∧
      taprootTweakPoint ec ik root = .ok (key, (first.toNat &&& 1 : Nat)) := by
  unfold controlBlock at h
  obtain ⟨_, hik, h⟩ := bind_ok.mp h
  obtain ⟨_, hsib, h⟩ := bind_ok.mp h
  obtain ⟨⟨key, parity⟩, hpoint, h⟩ := bind_ok.mp h
  obtain ⟨-, -, h⟩ := bind_ok.mp h
  cases h
  refine ⟨key, _, rfl, asBytes_ok.mp hik, asBytes_ok.mp hsib, ?_⟩
  rcases (taprootTweakPoint_ok hec hpoint).2 with rfl | rfl
  · exact ⟨rfl, hpoint⟩
  · exact ⟨rfl, hpoint⟩

/-! ## The HTLC -/

/-- What `build_htlc` leaves behind. -/
structure HtlcBuilt (ec : Coincurve) (hashlock claimPk refundPk : Bytes)
    (timeout : Timelock)
    (tree : ScriptTree)
    (internalKey controlClaim controlRefund root claimHash refundHash : Bytes) :
    Prop where
  lockLength : hashlock.length = 32
  claimScript : claimLeafScript hashlock claimPk = .ok tree.claimScript
  refundScript : refundLeafScript refundPk timeout = .ok tree.refundScript
  leafVersion : tree.leafVersion = leafVersionTapscript
  claimLeaf : tree.claimLeafHash = .ok claimHash
  refundLeaf : tree.refundLeafHash = .ok refundHash
  branch : tapbranchHash claimHash refundHash = .ok root
  claimBlock : controlBlock ec internalKey root refundHash = .ok controlClaim
  refundBlock : controlBlock ec internalKey root claimHash = .ok controlRefund

variable {hashlock claimPk refundPk internalKey : Bytes} {timeout : Timelock}
  {network : String}
  {htlc : BtcHtlc} {outpoint : BtcOutpoint} {amount : Int}
  {locator : BtcHtlcLocator}

/-- A built contract commits to the two scripts under the shared root. -/
theorem buildHtlc_ok
    (h : buildHtlc ec hashlock claimPk refundPk timeout internalKey network =
      .ok htlc) :
    ∃ root claimHash refundHash,
      HtlcBuilt ec hashlock claimPk refundPk timeout htlc.scriptTree
      htlc.internalKey htlc.controlBlockClaim htlc.controlBlockRefund root
        claimHash refundHash := by
  unfold buildHtlc at h
  obtain ⟨_, hhash, h⟩ := bind_ok.mp h
  obtain ⟨-, -, h⟩ := bind_ok.mp h
  obtain ⟨claimScript, hclaim, h⟩ := bind_ok.mp h
  obtain ⟨refundScript, hrefund, h⟩ := bind_ok.mp h
  obtain ⟨tree, htree, h⟩ := bind_ok.mp h
  obtain ⟨root, hroot, h⟩ := bind_ok.mp h
  obtain ⟨sibClaim, hsibClaim, h⟩ := bind_ok.mp h
  obtain ⟨cbClaim, hcbClaim, h⟩ := bind_ok.mp h
  obtain ⟨sibRefund, hsibRefund, h⟩ := bind_ok.mp h
  obtain ⟨cbRefund, hcbRefund, h⟩ := bind_ok.mp h
  cases h
  obtain ⟨v, -, hv⟩ := bind_ok.mp htree
  cases hv
  rw [ScriptTree.merkleRoot, bind_ok] at hroot
  obtain ⟨claimHash, hclaimHash, hroot⟩ := hroot
  obtain ⟨refundHash, hrefundHash, hroot⟩ := bind_ok.mp hroot
  have hc : sibRefund = claimHash :=
    Except.ok.inj (hsibRefund.symm.trans hclaimHash)
  have hr : sibClaim = refundHash :=
    Except.ok.inj (hsibClaim.symm.trans hrefundHash)
  subst hc hr
  exact ⟨root, sibRefund, sibClaim, asBytes_ok.mp hhash, hclaim, hrefund,
    rfl, hclaimHash,
    hrefundHash, hroot, hcbClaim, hcbRefund⟩

/-- A funded locator carries the HTLC it was made from. -/
theorem withFunding_ok (h : htlc.withFunding outpoint amount = .ok locator) :
    locator.toBtcHtlcLocatorFields = ⟨outpoint, htlc.scriptTree,
      htlc.controlBlockClaim,
      htlc.controlBlockRefund, htlc.internalKey, amount, htlc.network⟩ ∧
        0 < amount := by
  rw [BtcHtlc.withFunding, BtcHtlcLocator.new, bind_ok] at h
  obtain ⟨v, -, h⟩ := h
  cases h
  refine ⟨rfl, ?_⟩
  have hv := v.down
  unfold BtcHtlcLocatorFields.postInit at hv
  obtain ⟨-, -, hv⟩ := bind_ok.mp hv
  obtain ⟨-, -, hv⟩ := bind_ok.mp hv
  obtain ⟨-, -, hv⟩ := bind_ok.mp hv
  obtain ⟨hpos, -⟩ := refuseIf_bind_ok.mp hv
  exact Int.not_le.mp hpos

section Built

variable {root claimHash refundHash : Bytes} (hec : ec.Bip340)
  (hb : HtlcBuilt ec hashlock claimPk refundPk timeout locator.scriptTree
  locator.internalKey locator.controlBlockClaim locator.controlBlockRefund root
  claimHash refundHash)

include hb

/-- The output script of a built HTLC. -/
theorem HtlcBuilt.scriptpubkey {key : Bytes} {parity : Int}
    (hpoint : taprootTweakPoint ec locator.internalKey root =
      .ok (key, parity)) :
    locator.scriptTree.merkleRoot = .ok root ∧ locator.scriptpubkey ec = .ok
      ([0x51, 0x20] ++ key) := by
  have hroot : locator.scriptTree.merkleRoot = .ok root := by
    rw [ScriptTree.merkleRoot, hb.claimLeaf, ok_bind, hb.refundLeaf,
      ok_bind, hb.branch]
  refine ⟨hroot, ?_⟩
  rw [BtcHtlcLocator.scriptpubkey, p2trScript, hroot, ok_bind,
    taprootOutputKey, hpoint]
  rfl

include hec

/-- A leaf opens through a control block made with its sibling. -/
theorem HtlcBuilt.leafOpens {script leafHash sibling control : Bytes}
    (hleaf : tapleafHash script locator.scriptTree.leafVersion = .ok leafHash)
    (hbranch : tapbranchHash leafHash sibling = .ok root)
    (hcontrol : controlBlock ec locator.internalKey root sibling =
      .ok control) :
    LeafOpens ec locator script control := by
  obtain ⟨key, first, rfl, hik, hsib, hversion, hpoint⟩ :=
    controlBlock_ok hec hcontrol
  obtain ⟨hroot, hspk⟩ := hb.scriptpubkey hpoint
  refine ⟨first, leafHash, root, key, rfl, ?_, ?_, hroot, ?_, hspk⟩
  · rw [hversion]
    rw [hb.leafVersion] at hleaf
    exact hleaf
  · have hdrop : (first :: (locator.internalKey ++ sibling)).drop 33 =
        sibling :=
      List.drop_left' hik
    rw [hdrop]
    exact hbranch
  · have htake : ((first :: (locator.internalKey ++ sibling)).drop 1).take 32 =
        locator.internalKey :=
      List.take_left' hik
    rw [htake]
    exact hpoint

/-- **Both leaves open.** -/
theorem HtlcBuilt.opens (leaf : Leaf) :
    LeafOpens ec locator (locator.scriptTree.scriptFor leaf)
      (locator.controlFor leaf) := by
  cases leaf with
  | claim => exact hb.leafOpens hec hb.claimLeaf hb.branch hb.claimBlock
  | refund =>
    have hbranch : tapbranchHash refundHash claimHash = .ok root := by
      rw [tapbranchHash_comm _ _ (length_tapleafHash hb.refundLeaf)
        (length_tapleafHash hb.claimLeaf)]
      exact hb.branch
    exact hb.leafOpens hec hb.refundLeaf hbranch hb.refundBlock

variable {prevout sk dest aux tx : Bytes} {fee : Int}

/-- A claim on a whole outpoint gives up the preimage. -/
theorem HtlcBuilt.claimReveals
    (hprevout : locator.fundingOutpoint.prevoutBytes = .ok prevout)
    (hlen : prevout.length = 36) {p : Bytes} (hp : sha256 p = hashlock)
    (h : buildClaimTx ec locator p sk dest fee aux = .ok tx) :
    ClaimReveals locator.fundingOutpoint hashlock p tx := by
  unfold buildClaimTx at h
  obtain ⟨_, hp32, h⟩ := bind_ok.mp h
  have hp32 := asBytes_ok.mp hp32
  obtain ⟨-, h⟩ := refuseIf_bind_ok.mp h
  obtain ⟨-, h⟩ := refuseIf_bind_ok.mp h
  have hone : [p].length ≤ 1 := Nat.le_refl 1
  have h : buildSpendTx ec locator [p] sk .claim dest (locator.amountSats - fee)
    ((0xFFFFFFFD : Nat) : Int) 0 aux = .ok tx := h
  obtain ⟨w, stack, sig, rfl, hw, -, hprevouts, -, hwit, hitems, hsig⟩ :=
    buildSpendTx_wire hec hone hprevout hlen h
  refine ⟨?_, prevout, hprevout, ?_⟩
  · have hlock : ¬ hashlock.length ≠ 32 := fun hne => hne hb.lockLength
    rw [scrapeSecret, refuseIf, if_neg hlock, ok_bind,
      iterWitnessStack_bytes hw hwit]
    simp only [List.map_cons, List.map_nil, List.flatten_cons, List.flatten_nil,
      List.append_nil, hitems]
    -- the signature is passed over, the next item is the preimage
    have h1 : (sig.length == 32 && sha256 sig == hashlock) = false := by
      rw [hsig]
      rfl
    have h2 : (p.length == 32 && sha256 p == hashlock) = true := by
      rw [hp32, hp, beq_self_eq_true, beq_self_eq_true]
      rfl
    rw [List.cons_append, List.cons_append, List.nil_append]
    simp only [List.find?_cons, h1, h2]
  · rw [btcInputOutpointsFromRaw_bytes hw, hprevouts]

/-- A refund on a whole outpoint waits as its leaf says and shows no
preimage. -/
theorem HtlcBuilt.refundWaits
    (hprevout : locator.fundingOutpoint.prevoutBytes = .ok prevout)
    (hlen : prevout.length = 36)
    (h : buildRefundTx ec locator sk timeout dest fee aux = .ok tx) :
    RefundWaits locator hashlock tx := by
  unfold buildRefundTx at h
  obtain ⟨-, h⟩ := refuseIf_bind_ok.mp h
  have hnone : ([] : List Bytes).length ≤ 1 := Nat.zero_le 1
  obtain ⟨w, stack, sig, rfl, hw, houts, hprevouts, hseqs, hwit,
      hitems, hsig⟩ :=
    buildSpendTx_wire hec hnone hprevout hlen h
  obtain ⟨hoperand, hscript, -⟩ := refundLeafScript_ok hb.refundScript
  obtain ⟨key, first, hcontrol, hik, hsib, -, -⟩ :=
    controlBlock_ok hec hb.refundBlock
  constructor
  · refine ⟨prevout, timeout.toNsequence, _, hprevout,
      btcSpendFieldsFromRaw_bytes hw houts, hprevouts,
      hseqs, hoperand, (toNsequence_lt timeout).2⟩
  · intro stack' hstack push hpush _ p hp _ heq
    rw [iterWitnessStack_bytes hw hwit, List.map_cons, List.map_nil,
      List.mem_singleton] at hstack
    rw [hstack, hitems] at hpush
    -- 64 bytes, more than 32, 65
    simp only [List.cons_append, List.nil_append, List.mem_cons,
      List.not_mem_nil, or_false] at hpush
    rw [← heq] at hp
    rcases hpush with rfl | rfl | rfl
    · omega
    · have hlong : 32 < (locator.scriptTree.scriptFor .refund).length := hscript
      omega
    · have hlong : (locator.controlFor .refund).length = 65 := by
        show locator.controlBlockRefund.length = 65
        rw [hcontrol, List.length_cons, List.length_append, hik, hsib]
      omega

end Built

/-! ## A refund that returns -/

/-- In range, `struct.pack` returns. -/
theorem structPack_of_range {lo hi x : Int} (k : Nat) (h : lo ≤ x ∧ x < hi) :
    ∃ b, structPack lo hi k x = .ok b := ⟨_, structPack_ok.mpr ⟨h, rfl⟩⟩

/-- A short script can be sized. -/
theorem sized_of_short {b : Bytes} (h : b.length < 2 ^ 32) :
    ∃ s, sized b = .ok s :=
  ⟨_, sized_ok.mpr ⟨Nat.lt_trans h (by decide), rfl⟩⟩

/-- Signing needs amounts and a sequence number that can be packed. -/
theorem taprootSighash_returns (prevout : Bytes)
    {amountB spkB seqB leafHash spk : Bytes}
    {amount sequence : Int}
    (hamount : packI64 amount = .ok amountB) (hspk : sized spk = .ok spkB)
    (hseq : packU32 sequence = .ok seqB) (hleaf : leafHash.length = 32) :
    ∃ m, taprootSighash 2 0 [(prevout, sequence)] 0 [(amount, spk)]
      [(amount, [])] sighashDefault
      (some leafHash) none = .ok m ∧ m.length = 32 := by
  have hinputs : sighashAllInputs [(prevout, sequence)] [(amount, spk)] =
      .ok (sha256 prevout ++ sha256 amountB ++ sha256 spkB ++ sha256 seqB) := by
    simp [sighashAllInputs, joinPieces, hamount, hspk, hseq]
  have houtputs : joinPieces packOutput [(amount, [])] =
      .ok (amountB ++ [0x00]) := by
    have hempty : sized [] = .ok [0x00] := rfl
    simp [joinPieces, packOutput, hamount, hempty]
  have hleafB : sighashTapleaf (some leafHash) =
      .ok (leafHash ++ [0x00] ++ [0xFF, 0xFF, 0xFF, 0xFF]) := by
    simp [sighashTapleaf, asBytes, refuseIf, hleaf]
  -- the default type commits to everything, so no branch on it is left
  have hdefault : sighashDefault &&& 0x03 = sighashDefault ∨
      sighashDefault &&& 0x03 = sighashAll :=
    .inl rfl
  have hnotSingle : ¬ sighashDefault &&& 0x03 = sighashSingle := by decide
  have hall : ¬ (sighashDefault &&& sighashAnyonecanpay ≠ 0) := by decide
  have htype : byteOf (sighashDefault : Nat) = .ok [0x00] := rfl
  have hversion : packI32 2 = .ok [0x02, 0x00, 0x00, 0x00] := rfl
  have hzero : packU32 0 = .ok [0x00, 0x00, 0x00, 0x00] := rfl
  have hindex : packU32 ((0 : Nat) : Int) = .ok [0x00, 0x00, 0x00, 0x00] := rfl
  unfold taprootSighash
  simp only [refuseIf, List.length_cons, List.length_nil, hinputs, htype,
    hversion, hzero, hindex,
    if_pos hdefault, houtputs, if_neg hall, if_neg hnotSingle, hleafB,
      sighashAnnex, ok_bind, pure_eq_ok]
  exact ⟨_, rfl, length_taggedHash _ _⟩

section Returns

variable {root claimHash refundHash prevout : Bytes} (hec : ec.Bip340)
  (hb : HtlcBuilt ec hashlock claimPk refundPk timeout locator.scriptTree
  locator.internalKey locator.controlBlockClaim locator.controlBlockRefund root
  claimHash refundHash)

include hec hb

/-- With an outpoint and an amount that can be packed, there is a refund. -/
theorem HtlcBuilt.refund_returns
    (hprevout : locator.fundingOutpoint.prevoutBytes = .ok prevout)
    (hamount : 0 < locator.amountSats ∧ locator.amountSats < 2 ^ 63) :
    ∃ sk aux tx, buildRefundTx ec locator sk timeout [] 0 aux = .ok tx := by
  obtain ⟨sk, hsk, hsigns⟩ := hec.signs
  obtain ⟨key, first, hcontrol, hik, hsib, -, hpoint⟩ :=
    controlBlock_ok hec hb.refundBlock
  obtain ⟨-, hspk⟩ := hb.scriptpubkey hpoint
  obtain ⟨-, -, hscript⟩ := refundLeafScript_ok hb.refundScript
  have hseqlt := (toNsequence_lt timeout).1
  -- each field packs because its number is in range
  obtain ⟨amountB, hamountB⟩ : ∃ b, packI64 locator.amountSats = .ok b :=
    structPack_of_range 8 ⟨by omega, hamount.2⟩
  obtain ⟨seqB, hseqB⟩ : ∃ b, packU32 timeout.toNsequence = .ok b :=
    structPack_of_range 4 ⟨by omega, by omega⟩
  have hkey := (taprootTweakPoint_ok hec hpoint).1
  have hspkLen : ([0x51, 0x20] ++ key).length < 2 ^ 32 := by
    rw [List.length_append, hkey]
    decide
  obtain ⟨spkB, hspkB⟩ := sized_of_short hspkLen
  obtain ⟨m, hm, hmLen⟩ := taprootSighash_returns prevout hamountB hspkB hseqB
    (length_tapleafHash hb.refundLeaf)
  obtain ⟨sig, hsig⟩ :=
    hsigns m (List.replicate 32 0) hmLen List.length_replicate
  have hsigned : signSchnorr ec sk m (List.replicate 32 0) = .ok sig := by
    rw [signSchnorr, asBytes_ok (u := ()).mpr hsk, ok_bind,
      asBytes_ok (u := ()).mpr hmLen, ok_bind,
      asBytes_ok (u := ()).mpr List.length_replicate, ok_bind, hsig]
  have hout : packOutput (locator.amountSats, []) =
      .ok (amountB ++ [0x00]) := by
    have hempty : sized [] = .ok [0x00] := rfl
    rw [packOutput, hamountB, ok_bind, hempty]
    rfl
  -- and the three witness items are short
  obtain ⟨wit, hwit⟩ : ∃ wit, serializeWitness
      [sig, locator.scriptTree.refundScript,
        locator.controlBlockRefund] = .ok wit := by
    have hcontrolLen : locator.controlBlockRefund.length < 2 ^ 32 := by
      rw [hcontrol, List.length_cons, List.length_append, hik, hsib]
      decide
    have hsigLen : sig.length < 2 ^ 32 := by
      rw [hec.signature _ _ _ _ hsig]
      decide
    obtain ⟨s1, h1⟩ := sized_of_short hsigLen
    obtain ⟨s2, h2⟩ := sized_of_short (Nat.lt_of_le_of_lt hscript (by decide))
    obtain ⟨s3, h3⟩ := sized_of_short hcontrolLen
    have hcount : compactSize 3 = .ok [0x03] := rfl
    have hbody : joinPieces sized [sig, locator.scriptTree.refundScript,
        locator.controlBlockRefund] =
        .ok (s1 ++ (s2 ++ s3)) := by
      simp [joinPieces, h1, h2, h3]
    refine ⟨[0x03] ++ (s1 ++ (s2 ++ s3)), ?_⟩
    show (compactSize 3 >>= _) = _
    rw [hcount, ok_bind, hbody]
    rfl
  have hversion : packI32 2 = .ok [0x02, 0x00, 0x00, 0x00] := rfl
  have hzero : packU32 0 = .ok [0x00, 0x00, 0x00, 0x00] := rfl
  have hleaf : tapleafHash (locator.scriptTree.scriptFor .refund)
    locator.scriptTree.leafVersion =
      .ok refundHash := hb.refundLeaf
  refine ⟨sk, List.replicate 32 0, ?_⟩
  rw [buildRefundTx, Int.sub_zero, refuseIf,
    if_neg (Int.not_le.mpr hamount.1), ok_bind]
  unfold buildSpendTx
  simp only [hprevout, hspk, hleaf, hm, hsigned, hversion, hzero, hseqB,
    hout, ok_bind]
  have hitems : sig :: [] ++ [locator.scriptTree.scriptFor .refund,
    locator.controlFor .refund] =
    [sig, locator.scriptTree.refundScript, locator.controlBlockRefund] := rfl
  rw [hitems, hwit]
  exact ⟨_, rfl⟩

end Returns

/-! ## Main theorem -/

/-- How long a packed outpoint is. -/
theorem prevoutBytes_spec (o : BtcOutpoint) :
    (2 ^ 32 ≤ o.vout ∧ ∀ b, o.prevoutBytes ≠ .ok b) ∨
    (o.vout < 2 ^ 32 ∧ ∃ b, o.prevoutBytes = .ok b ∧
      (b.length = 36 ↔ ∀ c ∈ o.txid.toList, isAsciiSpace c = false)) := by
  obtain ⟨hlen, hv⟩ := refuseIf_bind_ok.mp o.valid
  obtain ⟨hhex, -⟩ := refuseIf_bind_ok.mp hv
  have hlen : o.txid.length = 64 := Decidable.not_not.mp hlen
  obtain ⟨txid, htxid⟩ := Option.ne_none_iff_exists'.mp hhex
  by_cases hvout : o.vout ≥ 4294967296
  · refine .inl ⟨hvout, fun b h => ?_⟩
    rw [BtcOutpoint.prevoutBytes, if_pos hvout] at h
    cases h
  · refine .inr ⟨Int.not_le.mp hvout, _, if_neg hvout, ?_⟩
    rw [← length_fromHex_iff htxid, hlen, htxid]
    simp only [Option.getD_some, List.length_append, List.length_reverse,
      List.length_cons,
      List.length_nil]
    omega

/-- A refund names outpoints of 36 bytes, whatever was put into it. -/
theorem length_of_inputPrevouts {tx prevout : Bytes} {fields : BtcSpendFields}
    (h : btcSpendFieldsFromRaw tx = .ok fields)
    (hprevout : prevout ∈ fields.inputPrevouts) :
    prevout.length = 36 := by
  rw [btcSpendFieldsFromRaw, bind_ok] at h
  obtain ⟨t, ht, h⟩ := h
  obtain ⟨w, -, -, -, rfl⟩ := takeTx_ok.mp ht
  cases h
  simp only [WireTx.parts, List.map_map, List.mem_map] at hprevout
  obtain ⟨i, -, rfl⟩ := hprevout
  exact i.prevout.property

/-- What `build_htlc` made, seen through the locator of its funding. -/
theorem built_of_funded
    (hbuild : buildHtlc ec hashlock claimPk refundPk timeout internalKey
      network = .ok htlc)
    (hfund : htlc.withFunding outpoint amount = .ok locator) :
    locator.fundingOutpoint = outpoint ∧
      locator.amountSats = amount ∧ 0 < amount ∧
      ∃ root claimHash refundHash, HtlcBuilt ec hashlock claimPk refundPk
        timeout locator.scriptTree locator.internalKey locator.controlBlockClaim
        locator.controlBlockRefund root claimHash
        refundHash := by
  obtain ⟨hfields, hpos⟩ := withFunding_ok hfund
  rw [hfields]
  exact ⟨rfl, rfl, hpos, buildHtlc_ok hbuild⟩

/-- A spendable HTLC that fits its fields has no white space in its txid. -/
theorem no_space_of_spendable (hec : ec.Bip340)
    (hbuild : buildHtlc ec hashlock claimPk refundPk timeout internalKey
      network = .ok htlc)
    (hfund : htlc.withFunding outpoint amount = .ok locator)
    (hvout : outpoint.vout < 2 ^ 32)
    (hamount : amount < 2 ^ 63)
    (h : HtlcSpendable ec hashlock timeout locator) :
    ∀ c ∈ outpoint.txid.toList, isAsciiSpace c = false := by
  obtain ⟨rfl, rfl, hpos, root, claimHash, refundHash, hb⟩ :=
    built_of_funded hbuild hfund
  rcases prevoutBytes_spec locator.fundingOutpoint with ⟨hbig, -⟩ | ⟨-, prevout,
    hprevout, hiff⟩
  · omega
  · obtain ⟨sk, aux, tx, htx⟩ := hb.refund_returns hec hprevout ⟨hpos, hamount⟩
    obtain ⟨prevout', seq, fields, hprevout', hfields, hprevouts, -⟩ :=
      (h.refund _ _ _ _ _ htx).spends
    -- what the reader sees has 36 bytes, so what was written has
    have hsame : prevout' = prevout :=
      Except.ok.inj (hprevout'.symm.trans hprevout)
    have hmem : prevout' ∈ fields.inputPrevouts := by
      rw [hprevouts]
      exact List.mem_singleton_self _
    exact hiff.mp (hsame ▸ length_of_inputPrevouts hfields hmem)

/-- **Both ways out of the HTLC work** exactly when its txid is written without
white space, or when the outpoint or the amount does not fit its field and
nothing can be spent at all. -/
theorem htlc_spendable_iff (ec : Coincurve) (hec : ec.Bip340)
    (hashlock claimPk refundPk internalKey : Bytes) (timeout : Timelock)
    (network : String)
    (outpoint : BtcOutpoint) (amount : Int) (htlc : BtcHtlc)
    (locator : BtcHtlcLocator)
    (hbuild : buildHtlc ec hashlock claimPk refundPk timeout internalKey
      network = .ok htlc)
    (hfund : htlc.withFunding outpoint amount = .ok locator) :
    HtlcSpendable ec hashlock timeout locator ↔
      (∀ c ∈ outpoint.txid.toList, isAsciiSpace c = false) ∨
        2 ^ 32 ≤ outpoint.vout ∨
        2 ^ 63 ≤ amount := by
  constructor
  · intro h
    by_contra hnot
    rw [not_or, not_or] at hnot
    obtain ⟨hspace, hvout, hamount⟩ := hnot
    exact hspace (no_space_of_spendable hec hbuild hfund (Int.not_le.mp hvout)
      (Int.not_le.mp hamount) h)
  · intro h
    obtain ⟨rfl, rfl, hpos, root, claimHash, refundHash, hb⟩ :=
      built_of_funded hbuild hfund
    -- what is spent at all has an outpoint of 36 bytes
    have hwhole : ∀ prevout, locator.fundingOutpoint.prevoutBytes =
        .ok prevout →
        locator.amountSats < 2 ^ 63 → prevout.length = 36 := by
      intro prevout hprevout hlt
      rcases prevoutBytes_spec locator.fundingOutpoint with ⟨-,
        hnone⟩ | ⟨hvout, b, hb', hiff⟩
      · exact absurd hprevout (hnone prevout)
      · rw [hprevout, Except.ok.injEq] at hb'
        subst hb'
        rcases h with h | h | h
        · exact hiff.mpr h
        · omega
        · omega
    refine ⟨?_, ?_, hb.opens hec⟩
    · intro p sk dest fee aux tx hp htx
      obtain ⟨prevout, hprevout, hlt⟩ := claim_packs htx
      exact hb.claimReveals hec hprevout (hwhole prevout hprevout hlt) hp htx
    · intro sk dest fee aux tx htx
      obtain ⟨prevout, hprevout, hlt⟩ := refund_packs htx
      exact hb.refundWaits hec hprevout (hwhole prevout hprevout hlt) htx

/-! ## One HTLC, two outpoints -/

def sampleHashlock : Bytes :=
  [0x02, 0xd4, 0x49, 0xa3, 0x1f, 0xbb, 0x26, 0x7c, 0x8f, 0x35, 0x2e, 0x99, 0x68,
    0xa7, 0x9e, 0x3e,
   0x5f, 0xc9, 0x5c, 0x1b, 0xbe, 0xaa, 0x50, 0x2f, 0xd6, 0x45, 0x4e, 0xbd, 0xe5,
     0xa4, 0xbe, 0xdc]

def sampleClaimKey : Bytes :=
  [0xc6, 0x04, 0x7f, 0x94, 0x41, 0xed, 0x7d, 0x6d, 0x30, 0x45, 0x40, 0x6e, 0x95,
    0xc0, 0x7c, 0xd8,
   0x5c, 0x77, 0x8e, 0x4b, 0x8c, 0xef, 0x3c, 0xa7, 0xab, 0xac, 0x09, 0xb9, 0x5c,
     0x70, 0x9e, 0xe5]

def sampleRefundKey : Bytes :=
  [0xf9, 0x30, 0x8a, 0x01, 0x92, 0x58, 0xc3, 0x10, 0x49, 0x34, 0x4f, 0x85, 0xf8,
    0x9d, 0x52, 0x29,
   0xb5, 0x31, 0xc8, 0x45, 0x83, 0x6f, 0x99, 0xb0, 0x86, 0x01, 0xf1, 0x13, 0xbc,
     0xe0, 0x36, 0xf9]

/-- A day, in units of 512 seconds. -/
def sampleTimeout : Timelock := ⟨86400, .seconds, by decide⟩

/-- The tweak of the sample, the point it gives, and the signature of its
refund. -/
def sampleTweak : Bytes :=
  [0x8a, 0xcc, 0xae, 0x61, 0xcc, 0x06, 0x4a, 0x8b, 0x73, 0x97, 0x5c, 0xc0, 0x99,
    0xef, 0x7e, 0x2f,
   0xf7, 0x38, 0x43, 0x6d, 0x89, 0x40, 0x33, 0x01, 0x8a, 0x62, 0x09, 0x6a, 0x03,
     0x63, 0x8b, 0xb1]

def samplePoint : Bytes :=
  [0x02, 0x73, 0x59, 0xc3, 0x6f, 0xd1, 0x00, 0x1e, 0x03, 0x9a, 0x72, 0x98, 0xcf,
    0x75, 0x23, 0xd9,
   0xbe, 0xde, 0x14, 0x49, 0xb3, 0xfd, 0xa3, 0x69, 0x5d, 0x1f, 0x56, 0x77, 0xb5,
     0x3b, 0xb6, 0xa0,
   0x63]

def sampleSignature : Bytes :=
  [0x3a, 0xea, 0xc5, 0xec, 0xe4, 0xa4, 0xc1, 0xd6, 0x44, 0x98, 0x38, 0x81, 0x5f,
    0xfb, 0x3e, 0x49,
   0xf2, 0xfb, 0x77, 0x8b, 0xfa, 0xbc, 0xe4, 0x01, 0xc7, 0xdd, 0xde, 0xdd, 0x02,
     0x56, 0x31, 0x57,
   0xfd, 0xc1, 0xa9, 0xbd, 0x79, 0x26, 0x21, 0xb7, 0x88, 0x8a, 0x2a, 0x23, 0xb2,
     0x48, 0xf8, 0x46,
   0xde, 0x11, 0xae, 0x94, 0x83, 0x3b, 0x4f, 0xa0, 0x3d, 0x47, 0x1f, 0xf6, 0x7d,
     0x8a, 0xcd, 0xb8]

/-- `coincurve` on the sample. -/
def sampleCurve : Coincurve where
  addTweak point tweak :=
    if point = 0x02 :: numsInternalKeyXonly ∧
      tweak = sampleTweak then .ok samplePoint
    else .error (.other "unknown point")
  signSchnorr _ _ _ := .ok sampleSignature

/-- The sample curve satisfies the laws assumed of the library. -/
theorem sampleCurve_bip340 : sampleCurve.Bip340 where
  point := by
    intro point tweak q h
    unfold sampleCurve at h
    simp only at h
    split at h
    · cases h
      exact ⟨samplePoint.drop 1, by decide, .inl rfl⟩
    · cases h
  signature := by
    intro sk msg aux sig h
    cases h
    decide
  signs := ⟨List.replicate 32 1, List.length_replicate,
    fun _ _ _ _ => ⟨sampleSignature, rfl⟩⟩

/-- `build_htlc` and `with_funding` on the sample. -/
def sampleFunded (outpoint : BtcOutpoint) :
    Except PyErr (BtcHtlc × BtcHtlcLocator) := do
  let htlc ← buildHtlc sampleCurve sampleHashlock sampleClaimKey
    sampleRefundKey sampleTimeout
    numsInternalKeyXonly "bc"
  let locator ← htlc.withFunding outpoint 100000
  return (htlc, locator)

/-- If the sample contract can be funded at an outpoint, it was built first. -/
theorem sampleFunded_ok {outpoint : BtcOutpoint}
    (h : (sampleFunded outpoint).isOk = true) :
    ∃ htlc locator, buildHtlc sampleCurve sampleHashlock sampleClaimKey
      sampleRefundKey sampleTimeout numsInternalKeyXonly "bc" = .ok htlc ∧
    htlc.withFunding outpoint 100000 = .ok locator := by
  cases hf : sampleFunded outpoint with
  | error e =>
    rw [hf] at h
    cases h
  | ok r =>
    unfold sampleFunded at hf
    obtain ⟨htlc, hbuild, hf⟩ := bind_ok.mp hf
    obtain ⟨locator, hfund, -⟩ := bind_ok.mp hf
    exact ⟨htlc, locator, hbuild, hfund⟩

/-- A txid with two blanks where its last byte should be. -/
def blankOutpoint : BtcOutpoint where
  txid := "ababababababababababababababababababababababababababababababab  "
  vout := 1
  valid := by decide

/-- With an empty txid in the funding outpoint nobody can spend the output. -/
theorem htlc_unspendable_blankOutpoint :
    ∃ htlc locator, buildHtlc sampleCurve sampleHashlock sampleClaimKey
      sampleRefundKey sampleTimeout numsInternalKeyXonly "bc" = .ok htlc ∧
    htlc.withFunding blankOutpoint 100000 = .ok locator ∧ sampleCurve.Bip340 ∧
    ¬ HtlcSpendable sampleCurve sampleHashlock sampleTimeout locator := by
  obtain ⟨htlc, locator, hbuild, hfund⟩ := sampleFunded_ok (by decide +kernel :
    (sampleFunded blankOutpoint).isOk = true)
  refine ⟨htlc, locator, hbuild, hfund, sampleCurve_bip340, ?_⟩
  intro h
  have hspace := no_space_of_spendable sampleCurve_bip340 hbuild hfund
    (by decide) (by decide) h ' '
    (by decide)
  exact absurd hspace (by decide)

/-- The outpoint without them. -/
def sampleOutpoint : BtcOutpoint where
  txid := "abababababababababababababababababababababababababababababababab"
  vout := 1
  valid := by decide

theorem htlc_spendable_sampleOutpoint :
    ∃ htlc locator, buildHtlc sampleCurve sampleHashlock sampleClaimKey
      sampleRefundKey sampleTimeout numsInternalKeyXonly "bc" = .ok htlc ∧
    htlc.withFunding sampleOutpoint 100000 = .ok locator ∧ sampleCurve.Bip340 ∧
    HtlcSpendable sampleCurve sampleHashlock sampleTimeout locator := by
  obtain ⟨htlc, locator, hbuild, hfund⟩ := sampleFunded_ok (by decide +kernel :
    (sampleFunded sampleOutpoint).isOk = true)
  refine ⟨htlc, locator, hbuild, hfund, sampleCurve_bip340, ?_⟩
  have hspace : sampleOutpoint.txid.toList.all (fun c => !isAsciiSpace c) =
      true := by decide
  refine (htlc_spendable_iff sampleCurve sampleCurve_bip340 _ _ _ _ _ _ _ _ htlc
    locator hbuild
    hfund).mpr (.inl ?_)
  intro c hc
  have hc' := List.all_eq_true.mp hspace c hc
  exact Bool.not_eq_eq_eq_not.mp hc'

end Pyrxd.Btc
