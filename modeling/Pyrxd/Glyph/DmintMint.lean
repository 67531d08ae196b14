import Pyrxd.Glyph.DmintState
import Pyrxd.Glyph.ScriptExact
import Pyrxd.Glyph.SignedSize

/-!
# Mint transactions

`build_dmint_mint_tx` of `glyph/dmint/miner.py`, with the V1 builder it hands
over to. A mint spends the contract and one plain output: the contract is
written out again with its next state, the reward and the fee come out of the
plain output, and the rest of that goes back to the miner. The transaction is
returned before it is mined and signed, so it is measured with placeholders for
both scripts.
-/

namespace Pyrxd.Glyph

open Pyrxd.Lib Pyrxd.Tx
open Pyrxd.Swap (GlyphRef bare p2pkhHead p2pkhTail)

structure DmintContractUtxo where
  txid : String
  vout : Int
  value : Int
  script : Bytes
  state : DmintState

structure DmintMinerFundingUtxo where
  txid : String
  vout : Int
  value : Int
  script : Bytes

/-- `is_token_bearing_script`: a ref, or a script that is cut short. -/
def isTokenBearingScript (script : Bytes) : Bool :=
  match iterInputRefs script with
  | .ok refs => !refs.isEmpty
  | .error _ => true

/-- `DEFAULT_ASERT_HALFLIFE`. -/
def defaultAsertHalflife : Int := 240

/-- The arguments of `build_dmint_mint_tx`. -/
structure MintArgs where
  contractUtxo : DmintContractUtxo
  nonce : Bytes
  minerPkh : Bytes
  currentTime : Int
  feeRate : Int := 10000
  fundingUtxo : Option DmintMinerFundingUtxo := none
  opReturnMsg : Option Bytes := none
  halfLife : Int := defaultAsertHalflife
  epochLength : Option Int := none
  maxAdjustmentLog2 : Option Int := none
  schedule : Option (List (Int × Int)) := none

structure DmintMintResult where
  tx : Transaction
  updatedState : DmintState
  contractScript : Bytes
  rewardScript : Bytes
  fee : Int

/-! ## Parts -/

/-- `build_mint_scriptsig`. -/
def buildMintScriptsig (nonce inputHash outputHash : Bytes) (nonceWidth : Nat) :
    Except PyErr Bytes := do
  refuseIf (nonceWidth ≠ 4 ∧ nonceWidth ≠ 8)
    ("nonce_width must be 4 or 8, got " ++ toString nonceWidth)
  refuseIf (nonce.length ≠ nonceWidth)
    ("nonce must be " ++ toString nonceWidth ++ " bytes, got " ++
      toString nonce.length)
  refuseIf (inputHash.length ≠ 32) ("input_hash must be 32 bytes, got " ++
    toString inputHash.length)
  refuseIf (outputHash.length ≠ 32) ("output_hash must be 32 bytes, got " ++
    toString outputHash.length)
  return [UInt8.ofNat nonceWidth] ++ nonce ++ [0x20] ++ inputHash ++ [0x20] ++
    outputHash ++ [0x00]

/-- `op_return_script`: `OP_RETURN "msg" <message>`. -/
def opReturnScript (msg : Bytes) : Bytes :=
  [0x6A] ++ [0x03, 0x6D, 0x73, 0x67] ++
    (if msg.length ≤ 0x4B then UInt8.ofNat msg.length :: msg
      else 0x4C :: UInt8.ofNat msg.length :: msg)

/-- `placeholder_hash`, and the placeholder for the script of the funding input:
a signature of 72 bytes with its flag, and a compressed key. -/
def placeholderHash : Bytes := List.replicate 32 0xFF
def placeholderFundingScriptsig : Bytes := List.replicate 108 0

/-- An input over a shim of the transaction it spends, with its script in
place. -/
def shellInput (txid : String) (vout value : Int) (script unlocking : Bytes) :
    Except PyErr TransactionInput :=
  if vout < -1 then .error (.other "list index out of range")
  else .ok {
    sourceTxid := some txid
    sourceOutputIndex := vout
    unlockingScript := some unlocking
    sequence := 0xFFFFFFFF
    satoshis := some value
    lockingScript := some script
    sighash := sighashAllForkid }

/-- The outputs, by the change. -/
def mintOutputs (contractScript rewardScript changeScript : Bytes)
    (opReturn : Option Bytes)
    (contractValue reward change : Int) : List TransactionOutput :=
  [⟨contractScript, some contractValue⟩, ⟨rewardScript, some reward⟩] ++
    (match opReturn with
      | none => []
      | some script => [⟨script, some 0⟩]) ++
    [⟨changeScript, some change⟩]

/-- How both builders end: the transaction is put together with placeholders and
without change, measured, and the change set. -/
def assembleMint (a : MintArgs) (fundingUtxo : DmintMinerFundingUtxo)
    (nonceWidth : Nat) (locktime : Int) (updatedState : DmintState)
    (contractScript rewardScript : Bytes) : Except PyErr DmintMintResult := do
  let changeScript := [0x76, 0xA9, 0x14] ++ a.minerPkh ++ [0x88, 0xAC]
  let opReturn := a.opReturnMsg.map opReturnScript
  let scriptsig ← buildMintScriptsig a.nonce placeholderHash
    placeholderHash nonceWidth
  let contractInput ← shellInput a.contractUtxo.txid a.contractUtxo.vout
    a.contractUtxo.value a.contractUtxo.script scriptsig
  let fundingInput ← shellInput fundingUtxo.txid fundingUtxo.vout
    fundingUtxo.value fundingUtxo.script placeholderFundingScriptsig
  let reward := a.contractUtxo.state.reward
  let outputs := mintOutputs contractScript rewardScript changeScript opReturn
    a.contractUtxo.value reward
  let raw ← Transaction.serialize ⟨[contractInput, fundingInput],
    outputs 0, 1, locktime⟩
  let fee := (raw.length : Int) * a.feeRate
  let changeValue := fundingUtxo.value - reward - fee
  if changeValue < 546 then
    .error (.other ("funding_utxo (" ++ toString fundingUtxo.value ++
      " photons) too small to cover reward (" ++ toString reward ++
      ") + fee (" ++ toString fee ++ "): change would be " ++
      toString changeValue ++
      " photons, below 546 dust limit."))
  else return {
    tx := ⟨[contractInput, fundingInput], outputs changeValue, 1, locktime⟩
    updatedState, contractScript, rewardScript, fee }

/-- `InvalidFundingUtxoError`. -/
def invalidFunding (u : DmintMinerFundingUtxo) : PyErr :=
  .other ("funding_utxo at " ++ u.txid ++ ":" ++ toString u.vout ++
    " carries an " ++
    "OP_PUSHINPUTREF-family opcode (token envelope) and cannot be spent as " ++
    "fee — that would silently destroy the token. Use a plain RXD UTXO.")

/-- The last checks of both builders. -/
def checkFunding (a : MintArgs) (u : DmintMinerFundingUtxo) :
    Except PyErr Unit :=
  if isTokenBearingScript u.script then .error (invalidFunding u)
  else refuseIf (80 < (a.opReturnMsg.getD []).length)
    ("op_return_msg too long (" ++
    toString (a.opReturnMsg.getD []).length ++
      " bytes); standardness limit is 80 bytes")

/-! ## V1 -/

/-- `_build_dmint_v1_mint_tx`. -/
def buildDmintV1MintTx (a : MintArgs) (fundingUtxo : DmintMinerFundingUtxo) :
    Except PyErr DmintMintResult :=
  let state := a.contractUtxo.state
  if state.isExhausted then .error (.other
    ("V1 dMint contract is exhausted: height=" ++ toString state.height ++
    " >= max_height=" ++ toString state.maxHeight))
  else do
    refuseIf (a.nonce.length ≠ 4) ("V1 nonce must be 4 bytes, got " ++
      toString a.nonce.length)
    refuseIf (a.minerPkh.length ≠ 20) ("miner_pkh must be 20 bytes, got " ++
      toString a.minerPkh.length)
    refuseIf (a.feeRate < 1) ("fee_rate must be >= 1, got " ++
      toString a.feeRate)
    refuseIf (a.contractUtxo.value ≠ 1)
      ("V1 dMint contract must be a 1-photon singleton, got " ++
        toString a.contractUtxo.value ++ " photons. " ++
        "The covenant enforces OP_OUTPUTVALUE==1 on the recreated contract output, so a " ++
        "non-1-photon carrier is unmintable. Deploy with a 1-photon contract output.")
    checkFunding a fundingUtxo
    let updatedState := { state with
      height := state.height + 1, daaMode := .fixed, targetTime := 0, lastTime := 0, isV1 := true }
    let contractScript ← buildDmintV1ContractScript
      ⟨state.height + 1, state.contractRef, state.tokenRef, state.maxHeight,
        state.reward, state.target, state.algo⟩
    let rewardScript ← buildDmintV1FtOutputScript a.minerPkh state.tokenRef
    assembleMint a fundingUtxo 4 0 updatedState contractScript rewardScript

/-! ## V2 -/

/-- `code.find(marker)`, and what comes after the marker. -/
def afterFirst (marker : Bytes) : Bytes → Option Bytes
  | [] => if marker = [] then some [] else none
  | b :: rest =>
    if (b :: rest).take marker.length =
      marker then some ((b :: rest).drop marker.length)
    else afterFirst marker rest

/-- `_asert_version_of_code`. -/
def asertVersionOfCode (code : Bytes) : Nat :=
  match afterFirst (partB1 ++ partB2) code with
  | none => 2
  | some daa =>
    if (daa.drop 7).take 5 = [0x03, 0x00, 0x00, 0x01, 0x95] then 2 else 1

/-- `daa_mode.name`. -/
def DaaMode.name : DaaMode → String
  | .fixed => "FIXED"
  | .epoch => "EPOCH"
  | .asert => "ASERT"
  | .lwma => "LWMA"
  | .schedule => "SCHEDULE"

/-- A count of bits to shift by. -/
def shiftCount (n : Int) : Except PyErr Nat :=
  if n < 0 then .error (.other "negative shift count") else .ok n.toNat

namespace MintArgs

variable (a : MintArgs)

def asertVersion : Nat :=
  if a.contractUtxo.state.daaMode =
    .asert then asertVersionOfCode a.contractUtxo.script else 2

/-- The checks of a V2 mint before anything is computed. -/
def checkV2 : Except PyErr Unit := do
  let state := a.contractUtxo.state
  refuseIf (state.daaMode = .epoch ∧
    (a.epochLength = none ∨ a.maxAdjustmentLog2 = none))
    ("EPOCH mint requires epoch_length and max_adjustment_log2 (baked into the contract " ++
      "at deploy, not carried in the parsed state) so the off-chain retarget can be computed.")
  refuseIf (state.daaMode = .schedule ∧ a.schedule.getD [] = [])
    ("SCHEDULE mint requires the schedule entries (baked into the contract at deploy, not " ++
      "carried in the parsed state) so the off-chain target lookup can be computed.")
  refuseIf (a.currentTime < 0) ("current_time must be >= 0, got " ++
    toString a.currentTime)
  refuseIf (a.currentTime > 0x7FFFFFFF)
    ("current_time must be <= 0x7FFFFFFF (2038-01-19), got " ++
      toString a.currentTime ++ "; the covenant " ++
      "reconstructs lastTime via NUM2BIN(_,4), which rejects locktimes with bit 31 set")
  refuseIf (state.daaMode ≠ .fixed ∧ a.currentTime < state.lastTime)
    ("current_time (" ++ toString a.currentTime ++
      ") must be >= the contract's last_time (" ++
      toString state.lastTime ++ ") for " ++
      state.daaMode.name ++
        ": a backwards locktime makes the on-chain DAA retarget overflow and the " ++
      "mint is rejected. Pass a current_time at or after the previous mint's time (and <= chain MTP).")

/-- `new_target`. -/
def newTarget : Except PyErr Int :=
  let state := a.contractUtxo.state
  match state.daaMode with
  | .fixed => .ok state.target
  | .asert =>
    if 2 ≤ a.asertVersion then
      computeNextTargetAsertV2 state.target state.lastTime a.currentTime
        state.targetTime a.halfLife
    else computeNextTargetAsert state.target state.lastTime a.currentTime
      state.targetTime a.halfLife
  | .lwma =>
    computeNextTargetLinear state.target state.lastTime a.currentTime
      state.targetTime
  | .epoch => do
    let epochLength := a.epochLength.getD 0
    let boundary ← epochBoundary state.height epochLength
    -- the shifts are made at a boundary only
    let n ← if boundary then shiftCount (a.maxAdjustmentLog2.getD 0) else .ok 0
    computeNextTargetEpoch state.target state.lastTime a.currentTime
      state.targetTime state.height epochLength n
  | .schedule =>
    .ok (computeNextTargetSchedule state.target state.height
      (a.schedule.getD []))

/-- `expected_part_b`. A negative number of shifts repeats nothing. -/
def expectedPartB : Except PyErr Bytes :=
  buildPartB (daaOf a.contractUtxo.state.daaMode a.halfLife (a.epochLength.getD
    2016) (a.maxAdjustmentLog2.getD 2) (a.schedule.getD []) a.asertVersion)

/-- The parameters are those the contract was deployed with. -/
def checkPartB (codeWithSeparator : Bytes) : Except PyErr Unit :=
  if a.contractUtxo.state.daaMode = .fixed then .ok ()
  else do
    let expected ← a.expectedPartB
    refuseIf ((codeWithSeparator.drop (1 + partA.length + 1)).take
      expected.length ≠ expected)
      ("V2 " ++ a.contractUtxo.state.daaMode.name ++
        " mint: the supplied DAA params (half_life/epoch_length/" ++
        "max_adjustment_log2/schedule) do not reproduce the contract's baked bytecode. They must " ++
        "match the values used at deploy, or the recreated target diverges and the mint is rejected.")

end MintArgs

/-- The V2 part of `build_dmint_mint_tx`. -/
def buildDmintV2MintTx (a : MintArgs) (fundingUtxo : DmintMinerFundingUtxo) :
    Except PyErr DmintMintResult := do
  let state := a.contractUtxo.state
  a.checkV2
  if state.isExhausted then .error (.other ("dMint contract is exhausted: height=" ++ toString state.height ++
    " >= max_height=" ++ toString state.maxHeight))
  else do
    refuseIf (a.nonce.length ≠ 8) ("V2 nonce must be 8 bytes, got " ++
      toString a.nonce.length)
    refuseIf (a.minerPkh.length ≠ 20) ("miner_pkh must be 20 bytes, got " ++
      toString a.minerPkh.length)
    refuseIf (a.contractUtxo.value ≠ 1)
      ("V2 dMint contract must be a 1-photon singleton, got " ++
        toString a.contractUtxo.value ++ " photons. " ++
        "The covenant enforces OP_OUTPUTVALUE==1 on the recreated contract output, so a " ++
        "non-1-photon carrier is unmintable. Deploy with a 1-photon contract output.")
    checkFunding a fundingUtxo
    let newTarget ← a.newTarget
    let updatedState := { state with
      height := state.height + 1, lastTime := a.currentTime, target := newTarget, isV1 := false }
    let oldStateBytes ← state.v2StateScriptBytes
    refuseIf (oldStateBytes.isPrefixOf a.contractUtxo.script = false ∨
        (a.contractUtxo.script.drop oldStateBytes.length).head? ≠
          some opStateSeparator)
      ("V2 mint: parsed state does not round-trip to the contract UTXO script " ++
        "(non-canonical encoding or unexpected layout); cannot safely recreate.")
    let codeWithSeparator := a.contractUtxo.script.drop oldStateBytes.length
    let newStateBytes ← updatedState.v2StateScriptBytes
    a.checkPartB codeWithSeparator
    let rewardScript ← buildDmintV1FtOutputScript a.minerPkh state.tokenRef
    assembleMint a fundingUtxo 8 a.currentTime updatedState (newStateBytes ++
      codeWithSeparator) rewardScript

/-- `build_dmint_mint_tx`. -/
def buildDmintMintTx (a : MintArgs) : Except PyErr DmintMintResult := do
  refuseIf (a.feeRate < 1) ("fee_rate must be >= 1, got " ++ toString a.feeRate)
  if a.contractUtxo.state.isV1 then
    match a.fundingUtxo with
    | none =>
      invalid ("V1 mint requires a funding_utxo: V1 contracts are singletons " ++
        "(typically 1 photon) and the FT reward + tx fee come from a " ++
        "separate plain-RXD input. Pass funding_utxo=DmintMinerFundingUtxo(...) " ++
        "as a keyword argument.")
    | some fundingUtxo => do
      refuseIf (a.currentTime ≠ 0)
        ("current_time must be 0 for V1 mints — V1 has no DAA and the " ++
        "value would be silently ignored. Pass current_time=0 to make " ++
        "the no-op explicit.")
      buildDmintV1MintTx a fundingUtxo
  else
    match a.fundingUtxo with
    | none =>
      invalid ("V2 mint requires a funding_utxo: the contract is a 1-photon singleton " ++
        "and the FT reward + tx fee come from a separate plain-RXD input (same " ++
        "shape as V1). Pass funding_utxo=DmintMinerFundingUtxo(...).")
    | some fundingUtxo => buildDmintV2MintTx a fundingUtxo

/-! ## What a mint pays -/

/-- The transaction once it is mined and signed. -/
def DmintMintResult.finished (r : DmintMintResult)
    (contractSig fundingSig : Bytes) : Transaction :=
  { r.tx with
    inputs := List.zipWith (fun i script => { i with unlockingScript := some script }) r.tx.inputs [contractSig, fundingSig] }

/-- The contract comes back with the photon it holds, the reward is paid in the
token, what is left goes back to the miner, and the fee is worth the size of the
transaction however it is mined and signed. -/
structure MintPays (a : MintArgs) (u : DmintMinerFundingUtxo)
    (r : DmintMintResult) : Prop where
  spends : r.tx.inputs.map TransactionInput.satoshis =
    [some a.contractUtxo.value, some u.value]
  balanced : a.contractUtxo.value + u.value =
    (r.tx.outputs.map fun o => o.satoshis.getD 0).sum + r.fee
  contract : a.contractUtxo.value = 1 ∧
    r.tx.outputs[0]? = some ⟨r.contractScript, some 1⟩
  reward : ∃ token, a.contractUtxo.state.tokenRef.toBytes = .ok token ∧
    r.tx.outputs[1]? = some ⟨ftFrame a.minerPkh token,
      some a.contractUtxo.state.reward⟩
  change : ∃ value, r.tx.outputs.getLast? =
    some ⟨p2pkhHead ++ a.minerPkh ++ p2pkhTail, some value⟩ ∧ 546 ≤ value
  covered : ∀ nonce inputHash outputHash contractSig fundingSig raw,
    buildMintScriptsig nonce inputHash outputHash
      (if a.contractUtxo.state.isV1 then 4 else 8) = .ok contractSig →
      fundingSig.length ≤ 108 →
      (r.finished contractSig fundingSig).serialize = .ok raw →
        a.feeRate * raw.length ≤ r.fee
  written : u.value < 256 ^ 8 →
    ∀ nonce inputHash outputHash contractSig fundingSig,
    buildMintScriptsig nonce inputHash outputHash
      (if a.contractUtxo.state.isV1 then 4 else 8) = .ok contractSig →
      fundingSig.length ≤ 108 →
      ∃ raw, (r.finished contractSig fundingSig).serialize = .ok raw

section Pays

variable {a : MintArgs} {u : DmintMinerFundingUtxo} {r : DmintMintResult}

/-- The mint's unlocking script has a fixed length for a nonce width. -/
theorem length_buildMintScriptsig {nonce inputHash outputHash s : Bytes}
    {width : Nat}
    (h : buildMintScriptsig nonce inputHash outputHash width = .ok s) :
    s.length = width + 68 ∧ width ≤ 8 := by
  obtain ⟨hwidth, h⟩ := refuseIf_bind_ok.mp h
  obtain ⟨hnonce, h⟩ := refuseIf_bind_ok.mp h
  obtain ⟨hin, h⟩ := refuseIf_bind_ok.mp h
  obtain ⟨hout, h⟩ := refuseIf_bind_ok.mp h
  cases h
  simp only [List.length_append, List.length_cons, List.length_nil]
  omega

/-- The reward output is an FT of the token's reference. -/
theorem buildDmintV1FtOutputScript_ok {pkh script : Bytes} {ref : GlyphRef}
    (h : buildDmintV1FtOutputScript pkh ref = .ok script) :
    ∃ token, ref.toBytes = .ok token ∧ script = ftFrame pkh token := by
  obtain ⟨-, h⟩ := refuseIf_bind_ok.mp h
  obtain ⟨token, htoken, h⟩ := bind_ok.mp h
  cases h
  refine ⟨token, htoken, ?_⟩
  simp only [ftFrame, p2pkhHead, p2pkhTail, Swap.ftHead, Swap.ftTail,
    ftEpilogue, opStateSeparator, List.append_assoc, List.cons_append,
    List.nil_append]

/-- An input of the shell carries its value and its unlocking script. -/
theorem shellInput_ok {txid : String} {vout value : Int}
    {script unlocking : Bytes} {i : TransactionInput}
    (h : shellInput txid vout value script unlocking = .ok i) :
    i.satoshis = some value ∧ i.unlockingScript = some unlocking := by
  unfold shellInput at h
  split at h
  · cases h
  · cases h
    exact ⟨rfl, rfl⟩

/-- The change amount does not touch the scripts. -/
theorem mintOutputs_scripts (contractScript rewardScript changeScript : Bytes)
    (opReturn : Option Bytes)
    (value reward v w : Int) :
    (mintOutputs contractScript rewardScript changeScript opReturn
      value reward v).map TransactionOutput.lockingScript =
      (mintOutputs contractScript rewardScript changeScript opReturn value
      reward w).map TransactionOutput.lockingScript := by
  cases opReturn with
  | none => rfl
  | some script => rfl

/-- The outputs share out value, reward and change. -/
theorem mintOutputs_sum (contractScript rewardScript changeScript : Bytes)
    (opReturn : Option Bytes)
    (value reward change : Int) :
    ((mintOutputs contractScript rewardScript changeScript opReturn value reward
      change).map fun o =>
      o.satoshis.getD 0).sum = value + reward + change := by
  cases opReturn with
  | none =>
    show value + (reward + (change + 0)) = _
    omega
  | some script =>
    show value + (reward + (0 + (change + 0))) = _
    omega

/-- Every output but the change is there whatever the change is. -/
theorem mem_mintOutputs {contractScript rewardScript changeScript : Bytes}
    {opReturn : Option Bytes}
    {value reward v : Int} (w : Int) {o : TransactionOutput}
    (h : o ∈ mintOutputs contractScript rewardScript changeScript opReturn
      value reward v) :
    o ∈ mintOutputs contractScript rewardScript changeScript opReturn value
      reward w ∨ o = ⟨changeScript, some v⟩ := by
  rcases List.mem_append.mp h with h | h
  · exact .inl (List.mem_append_left _ h)
  · exact .inr (List.mem_singleton.mp h)

/-- A transaction that serialises has outputs that do. -/
theorem serialize_outputs_ok {t : Transaction} {raw : Bytes}
    (h : t.serialize = .ok raw) :
    ∃ b, joinAll TransactionOutput.serialize t.outputs = .ok b := by
  obtain ⟨version, hversion, h⟩ := bind_ok.mp h
  obtain ⟨nIn, hnIn, h⟩ := bind_ok.mp h
  obtain ⟨inputs, hinputs, h⟩ := bind_ok.mp h
  obtain ⟨nOut, hnOut, h⟩ := bind_ok.mp h
  obtain ⟨b, hb, h⟩ := bind_ok.mp h
  exact ⟨b, hb⟩

/-- Two transactions over the same inputs that pay the same scripts: either is
written if its outputs are, and they differ in length as their unlocking scripts
do. -/
theorem serialize_resized {t t' : Transaction} {raw b : Bytes}
    (h : t.serialize = .ok raw)
    (hshort : ∀ i ∈ t.inputs, ∃ s, i.unlockingScript = some s ∧ s.length < 0xFD)
    (hshort' : ∀ i ∈ t'.inputs, ∃ s, i.unlockingScript = some s ∧
      s.length < 0xFD)
    (hbare : bareTx t' = { bareTx t with outputs := t'.outputs })
    (hscripts : t'.outputs.map TransactionOutput.lockingScript =
      t.outputs.map TransactionOutput.lockingScript)
    (hb : joinAll TransactionOutput.serialize t'.outputs = .ok b) :
    ∃ raw', t'.serialize = .ok raw' ∧
      raw'.length + (t.inputs.map unlockingBytes).sum =
        raw.length + (t'.inputs.map unlockingBytes).sum := by
  have hlonger := Transaction.serialize_longer hshort
  have hlonger' := Transaction.serialize_longer hshort'
  rw [Longer, h] at hlonger
  cases hx : (bareTx t).serialize with
  | error e =>
    rw [hx] at hlonger
    cases hlonger
  | ok x =>
    rw [hx] at hlonger
    have hlen : raw.length = x.length + (t.inputs.map unlockingBytes).sum :=
      Except.ok.inj hlonger
    obtain ⟨y, hy, hsame⟩ := serialize_outputs hx hb hscripts
    rw [← hbare] at hy
    obtain ⟨raw', hraw', hlen'⟩ := hlonger'.ok_iff.mpr ⟨y, hy, rfl⟩
    exact ⟨raw', hraw', by omega⟩

/-- What `assembleMint` puts together. -/
theorem assembleMint_ok {width : Nat} {locktime : Int} {st : DmintState}
    {contractScript rewardScript : Bytes}
    (h : assembleMint a u width locktime st contractScript rewardScript =
      .ok r) :
    ∃ scriptsig contractInput fundingInput raw,
      buildMintScriptsig a.nonce placeholderHash placeholderHash width =
        .ok scriptsig ∧
      (contractInput.satoshis = some a.contractUtxo.value ∧
        contractInput.unlockingScript = some scriptsig) ∧
        (fundingInput.satoshis = some u.value ∧ fundingInput.unlockingScript =
        some placeholderFundingScriptsig) ∧ Transaction.serialize
        ⟨[contractInput, fundingInput], mintOutputs contractScript rewardScript
        (p2pkhHead ++ a.minerPkh ++ p2pkhTail) (a.opReturnMsg.map
          opReturnScript) a.contractUtxo.value a.contractUtxo.state.reward 0, 1,
          locktime⟩ = .ok raw ∧
      r.fee = raw.length * a.feeRate ∧
        546 ≤ u.value - a.contractUtxo.state.reward - r.fee ∧
      r.contractScript = contractScript ∧
      r.tx = ⟨[contractInput, fundingInput],
        mintOutputs contractScript rewardScript
        (p2pkhHead ++ a.minerPkh ++ p2pkhTail) (a.opReturnMsg.map
          opReturnScript) a.contractUtxo.value a.contractUtxo.state.reward
          (u.value - a.contractUtxo.state.reward - r.fee), 1, locktime⟩ := by
  obtain ⟨scriptsig, hscriptsig, h⟩ := bind_ok.mp h
  obtain ⟨contractInput, hcontract, h⟩ := bind_ok.mp h
  obtain ⟨fundingInput, hfunding, h⟩ := bind_ok.mp h
  obtain ⟨raw, hraw, h⟩ := bind_ok.mp h
  dsimp only at h
  split at h
  · cases h
  next hlow =>
    cases h
    exact ⟨scriptsig, contractInput, fundingInput, raw, hscriptsig,
      shellInput_ok hcontract, shellInput_ok hfunding, hraw, rfl,
      Int.not_lt.mp hlow, rfl, rfl⟩

/-- Both builders end in a transaction that pays. -/
theorem assembleMint_pays {width : Nat} {locktime : Int} {st : DmintState}
    {contractScript rewardScript : Bytes}
    (h : assembleMint a u width locktime st contractScript rewardScript = .ok r)
    (hone : a.contractUtxo.value = 1) (hrate : 1 ≤ a.feeRate)
    (hwidth : width = if a.contractUtxo.state.isV1 then 4 else 8)
    (hreward : buildDmintV1FtOutputScript a.minerPkh
      a.contractUtxo.state.tokenRef = .ok rewardScript) :
    MintPays a u r := by
  obtain ⟨scriptsig, contractInput, fundingInput, raw, hscriptsig, hcontract,
      hfunding, hraw, hfee, hdust, hscript, htx⟩ :=
    assembleMint_ok h
  obtain ⟨token, htoken, hframe⟩ := buildDmintV1FtOutputScript_ok hreward
  obtain ⟨hplaceholder, hsmall⟩ := length_buildMintScriptsig hscriptsig
  have hfundingLen : placeholderFundingScriptsig.length = 108 :=
    List.length_replicate
  have hshort : ∀ i ∈ [contractInput, fundingInput], ∃ s, i.unlockingScript =
      some s ∧ s.length < 0xFD := by
    intro i hi
    rcases List.mem_cons.mp hi with rfl | hi
    · exact ⟨_, hcontract.2, by omega⟩
    · rw [List.mem_singleton.mp hi]
      exact ⟨_, hfunding.2, by omega⟩
  have htrial : ([contractInput, fundingInput].map unlockingBytes).sum =
      width + 68 + 108 := by
    simp only [List.map_cons, List.map_nil, List.sum_cons, List.sum_nil,
      unlockingBytes, hcontract.2, hfunding.2, Option.getD_some,
      hplaceholder, hfundingLen]
    omega
  -- whatever the two scripts are, the transaction is as long as they are
  have hresized : ∀ {contractSig fundingSig b : Bytes}, contractSig.length =
      width + 68 → fundingSig.length ≤ 108 →
      joinAll TransactionOutput.serialize r.tx.outputs = .ok b →
        ∃ raw', (r.finished contractSig fundingSig).serialize = .ok raw' ∧
          raw'.length ≤ raw.length := by
    intro contractSig fundingSig b hc hf hb
    have hins : (r.finished contractSig fundingSig).inputs =
        [{ contractInput with unlockingScript := some contractSig },
          { fundingInput with unlockingScript := some fundingSig }] := by
      rw [DmintMintResult.finished, htx]
      rfl
    have hshort' : ∀ i ∈ (r.finished contractSig fundingSig).inputs, ∃ s,
        i.unlockingScript = some s ∧ s.length < 0xFD := by
      intro i hi
      rw [hins] at hi
      rcases List.mem_cons.mp hi with rfl | hi
      · exact ⟨_, rfl, by omega⟩
      · rw [List.mem_singleton.mp hi]
        exact ⟨_, rfl, by omega⟩
    have hfinal :
        ((r.finished contractSig fundingSig).inputs.map unlockingBytes).sum =
        contractSig.length + fundingSig.length := by
      rw [hins]
      rfl
    have hbare : bareTx (r.finished contractSig fundingSig) =
        { bareTx ⟨[contractInput, fundingInput],
          mintOutputs contractScript rewardScript (p2pkhHead ++ a.minerPkh ++
          p2pkhTail) (a.opReturnMsg.map opReturnScript) a.contractUtxo.value
          a.contractUtxo.state.reward 0, 1, locktime⟩ with
          outputs := (r.finished contractSig fundingSig).outputs } := by
      rw [DmintMintResult.finished, htx]
      rfl
    have hscripts : (r.finished contractSig fundingSig).outputs.map
        TransactionOutput.lockingScript =
        (mintOutputs contractScript rewardScript (p2pkhHead ++
          a.minerPkh ++ p2pkhTail) (a.opReturnMsg.map opReturnScript)
          a.contractUtxo.value a.contractUtxo.state.reward 0).map
          TransactionOutput.lockingScript := by
      rw [DmintMintResult.finished, htx]
      exact mintOutputs_scripts _ _ _ _ _ _ _ _
    obtain ⟨raw', hraw', hlen⟩ :=
      serialize_resized hraw hshort hshort' hbare hscripts hb
    rw [htrial, hfinal] at hlen
    exact ⟨raw', hraw', by omega⟩
  have houts : r.tx.outputs = mintOutputs contractScript rewardScript
      (p2pkhHead ++ a.minerPkh ++ p2pkhTail) (a.opReturnMsg.map opReturnScript)
      a.contractUtxo.value a.contractUtxo.state.reward
      (u.value - a.contractUtxo.state.reward - r.fee) := by
    rw [htx]
  refine ⟨?_, ?_, ⟨hone, ?_⟩, ⟨token, htoken, ?_⟩, ⟨_, ?_, hdust⟩, ?_, ?_⟩
  · rw [htx, List.map_cons, List.map_cons, hcontract.1, hfunding.1]
    rfl
  · rw [houts, mintOutputs_sum]
    omega
  · rw [houts, hscript, hone]
    rfl
  · rw [houts, ← hframe]
    rfl
  · rw [houts]
    exact List.getLast?_concat
  · intro nonce inputHash outputHash contractSig fundingSig raw' hsig hlen hraw'
    rw [← hwidth] at hsig
    obtain ⟨b, hb⟩ := serialize_outputs_ok hraw'
    obtain ⟨raw'', hraw'', hle⟩ :=
      hresized (length_buildMintScriptsig hsig).1 hlen hb
    rw [hraw', Except.ok.injEq] at hraw''
    rw [hraw'', hfee, Int.mul_comm]
    exact Int.mul_le_mul_of_nonneg_right (Int.ofNat_le.mpr hle) (by omega)
  · intro hvalue nonce inputHash outputHash contractSig fundingSig hsig hlen
    rw [← hwidth] at hsig
    obtain ⟨zero, hzero⟩ := serialize_outputs_ok hraw
    -- the change fits, since it comes out of a value that does
    have hrewardPaid : 0 ≤ a.contractUtxo.state.reward := by
      obtain ⟨x, hx⟩ := joinAll_mem hzero ⟨rewardScript,
        some a.contractUtxo.state.reward⟩
        (List.mem_cons_of_mem _ List.mem_cons_self)
      obtain ⟨value, hpaid, -⟩ := bind_ok.mp hx
      obtain ⟨hlen, hn⟩ := toBytesLe_ok hpaid
      rw [← hn]
      exact (leNat_range (Nat.le_of_eq hlen)).1
    have hfeePaid : 0 ≤ r.fee := by
      rw [hfee]
      exact Int.mul_nonneg (Int.natCast_nonneg _) (by omega)
    obtain ⟨b, hb⟩ : ∃ b, joinAll TransactionOutput.serialize r.tx.outputs =
        .ok b := by
      refine joinAll_returns fun o ho => ?_
      rw [houts] at ho
      rcases mem_mintOutputs 0 ho with ho | rfl
      · exact joinAll_mem hzero o ho
      · obtain ⟨x, hx⟩ :=
          joinAll_mem hzero ⟨p2pkhHead ++ a.minerPkh ++ p2pkhTail, some 0⟩
          (List.mem_append_right _ List.mem_cons_self)
        obtain ⟨none, hnone, hx⟩ := bind_ok.mp hx
        obtain ⟨script, hscript, hx⟩ := bind_ok.mp hx
        have hfits : 0 ≤ u.value - a.contractUtxo.state.reward - r.fee ∧
            u.value - a.contractUtxo.state.reward - r.fee < 256 ^ 8 :=
              ⟨by omega, by omega⟩
        exact ⟨_, bind_ok.mpr ⟨_, toBytesLe_of_range hfits,
          bind_ok.mpr ⟨script, hscript, rfl⟩⟩⟩
    obtain ⟨raw', hraw', -⟩ :=
      hresized (length_buildMintScriptsig hsig).1 hlen hb
    exact ⟨raw', hraw'⟩

/-- Past the funding check the builder goes on. -/
theorem checkFunding_bind_ok {β : Type} {f : Unit → Except PyErr β} {b : β}
    (h : (checkFunding a u >>= f) = .ok b) : f () = .ok b := by
  obtain ⟨_, hcheck, h⟩ := bind_ok.mp h
  exact h

/-- The version 1 mint pays its rate and loses nothing. -/
theorem buildDmintV1MintTx_pays (h : buildDmintV1MintTx a u = .ok r)
    (hv1 : a.contractUtxo.state.isV1 = true) : MintPays a u r := by
  rw [buildDmintV1MintTx] at h
  dsimp only at h
  split at h
  · cases h
  · obtain ⟨-, h⟩ := refuseIf_bind_ok.mp h
    obtain ⟨-, h⟩ := refuseIf_bind_ok.mp h
    obtain ⟨hrate, h⟩ := refuseIf_bind_ok.mp h
    obtain ⟨hone, h⟩ := refuseIf_bind_ok.mp h
    obtain ⟨script, -, h⟩ := bind_ok.mp (checkFunding_bind_ok h)
    obtain ⟨reward, hreward, h⟩ := bind_ok.mp h
    exact assembleMint_pays h (not_not.mp hone) (Int.not_lt.mp hrate)
      (by rw [hv1, if_pos rfl]) hreward

theorem buildDmintV2MintTx_pays (h : buildDmintV2MintTx a u = .ok r)
    (hv2 : a.contractUtxo.state.isV1 = false) (hrate : 1 ≤ a.feeRate) :
    MintPays a u r := by
  obtain ⟨-, -, h⟩ := bind_ok.mp h
  dsimp only at h
  split at h
  · cases h
  · obtain ⟨-, h⟩ := refuseIf_bind_ok.mp h
    obtain ⟨-, h⟩ := refuseIf_bind_ok.mp h
    obtain ⟨hone, h⟩ := refuseIf_bind_ok.mp h
    obtain ⟨target, -, h⟩ := bind_ok.mp (checkFunding_bind_ok h)
    obtain ⟨old, -, h⟩ := bind_ok.mp h
    obtain ⟨-, h⟩ := refuseIf_bind_ok.mp h
    obtain ⟨new, -, h⟩ := bind_ok.mp h
    obtain ⟨-, -, h⟩ := bind_ok.mp h
    obtain ⟨reward, hreward, h⟩ := bind_ok.mp h
    exact assembleMint_pays h (not_not.mp hone) hrate (by rw [hv2]; rfl) hreward

end Pays

/-- **Every mint pays.** -/
theorem mint_pays (a : MintArgs) (r : DmintMintResult)
    (h : buildDmintMintTx a = .ok r) :
    ∃ u, a.fundingUtxo = some u ∧ MintPays a u r := by
  obtain ⟨hrate, h⟩ := refuseIf_bind_ok.mp h
  cases hfunding : a.fundingUtxo with
  | none =>
    rw [hfunding] at h
    split at h
    · cases h
    · cases h
  | some u =>
    rw [hfunding] at h
    refine ⟨u, rfl, ?_⟩
    split at h
    next hv1 =>
      obtain ⟨-, h⟩ := refuseIf_bind_ok.mp h
      exact buildDmintV1MintTx_pays h hv1
    next hv2 => exact buildDmintV2MintTx_pays h (Bool.of_not_eq_true hv2) (Int.not_lt.mp hrate)

/-- The first mint of a V1 contract of 100, with a message. -/
def sampleMintArgs : MintArgs where
  contractUtxo := {
    txid := hex sampleTxid
    vout := 1
    value := 1
    script := []
    state := ⟨0, plainSampleRef, plainSampleRef, 100, 50, .sha256d, .fixed, 0,
      0, maxSha256dTarget, true⟩ }
  nonce := [0, 0, 0, 0]
  minerPkh := List.replicate 20 7
  currentTime := 0
  fundingUtxo := some ⟨hex sampleTxid, 0, 10000000,
    [0x76, 0xA9, 0x14] ++ List.replicate 20 7 ++ [0x88, 0xAC]⟩
  opReturnMsg := some [0x68, 0x69]

theorem sampleMintArgs_fee : (buildDmintMintTx sampleMintArgs).toOption.map
    DmintMintResult.fee = some 6530000 := by
  decide +kernel

/-- The statement at the sample mint. -/
theorem mint_pays_sample : ∃ r u, buildDmintMintTx sampleMintArgs = .ok r ∧
    sampleMintArgs.fundingUtxo = some u ∧ MintPays sampleMintArgs u r := by
  cases h : buildDmintMintTx sampleMintArgs with
  | error e =>
    have hfee := sampleMintArgs_fee
    rw [h] at hfee
    cases hfee
  | ok r =>
    obtain ⟨u, hu, hpays⟩ := mint_pays sampleMintArgs r h
    exact ⟨r, u, rfl, hu, hpays⟩

end Pyrxd.Glyph
