import Pyrxd.Agent.SignerSafety
import Pyrxd.Agent.WatchOnly

/-!
# The agent signs what the watch-only builder asks for

The two sides of the agent meet: `build_send` derives addresses from the
account's `Xpub`, writes the transaction and estimates its fee;
`AgentSigner.sign` derives them from the `Xprv`, reads the transaction and adds
up what it spends. The main theorem, `send_honoured_iff`, says for which sends
that goes through as the builder meant it: for those without change, and for
those with change that the signer can find, as long as the inputs are counted in
one byte.
-/

namespace Pyrxd.Agent

open Pyrxd.Lib Pyrxd.Tx Pyrxd.Hd Pyrxd.Wallet
open Pyrxd.Swap (PrivateKey DraftInput Draft isP2pkh p2pkhHead p2pkhTail
  scriptSigOf SignedInput)

/-! ## What is claimed -/

/-- The same outpoint, however its txid is spelled. -/
def SameOutpoint (i j : TransactionInput) : Prop :=
  txidBytes j.sourceTxid = txidBytes i.sourceTxid ∧
    j.sourceOutputIndex = i.sourceOutputIndex

/-- Every signature push of `t` is at most 72 bytes. -/
def ShortSignatures (t : Transaction) : Prop :=
  ∀ i ∈ t.inputs, ∃ script signature publicKey,
    i.unlockingScript = some script ∧
    Swap.parseP2pkhScriptsig script = .ok (signature, publicKey) ∧
      signature.length ≤ 72

section Claim

variable {Key Secret : Type} (hd : HdCurve Key Secret)
  (wallet : HdWallet Secret)

/-- The curve, signing in this way. -/
def signingBy (sgn : Secret → Bytes → Bytes) : HdCurve Key Secret :=
  { hd with sign := sgn }

/-- A UTXO as the builder is promised it: `o` is the output it names, of the
transaction it carries, and `key` is the wallet's key at its coordinates. -/
structure Correct (u : WatchOnlyUtxo) (o : TransactionOutput)
    (key : PrivateKey Secret) : Prop where
  source : ∃ srcBytes src, Lib.fromHex u.sourceTxHex = some srcBytes ∧
    Lib.fromHex u.txid = some (hash256 srcBytes).reverse ∧ Transaction.fromHex
      srcBytes = some src ∧ src.outputs[u.vout.toNat]? = some o
  value : o.satoshis = some u.value
  chain : u.change = 0 ∨ u.change = 1
  index : u.index ≤ maxDerivationIndex
  derived : wallet.privkeyFor hd u.change u.index = .ok key
  owner : o.lockingScript = keyScript hd key

/-- The signer does what the builder asked for, and the user has seen it. -/
def Honoured (us : UnsignedSend) (toAddress : String)
    (photons feeRate : Int) : Prop :=
  ∃ s d r raw t pkh,
    AgentSigner.sign hd wallet us.request (fun _ => .ok true) =
      ([.asked s true, .signs d], .ok r) ∧
    Lib.fromHex r.signedTxHex = some raw ∧ Transaction.fromHex raw = some t ∧
    List.Forall₂ SameOutpoint us.transaction.inputs t.inputs ∧ t.outputs =
      us.transaction.outputs ∧ addressToPublicKeyHash toAddress = .ok pkh ∧
      s.externalOutputs = [⟨0, "p2pkh:" ++ hex pkh, photons⟩] ∧ s.inputTotal =
      us.inputTotal ∧ (ShortSignatures t → feeRate * raw.length ≤ s.fee)

end Claim

/-- `k` is the least number of the largest coins that pay `photons` and the
estimated fee of a transaction with `k` inputs and two outputs. -/
structure Selects (photons feeRate : Int) (values : List Int)
    (k : Nat) : Prop where
  pos : 1 ≤ k
  le : k ≤ values.length
  reaches : Wallet.Reaches photons (78 * feeRate) (148 * feeRate) values k
  first : ∀ j, 1 ≤ j → j < k →
    ¬ Wallet.Reaches photons (78 * feeRate) (148 * feeRate) values j

/-- The values of coins, in descending order. -/
def descending (utxos : List WatchOnlyUtxo) : List Int :=
  (sortDescending WatchOnlyUtxo.value utxos).map WatchOnlyUtxo.value

/-! ## The builder -/

section Build

variable {Key Secret : Type} {hd : HdCurve Key Secret}

/-- An address locks exactly when it decodes to a 20-byte hash, and to the P2PKH
script of that hash. -/
theorem lockAddress_ok {address : String} {script : Bytes} :
    lockAddress address = .ok script ↔
    ∃ pkh, addressToPublicKeyHash address = .ok pkh ∧ pkh.length = 20 ∧
    script = p2pkhHead ++ pkh ++ p2pkhTail := by
  constructor
  · intro h
    obtain ⟨pkh, hpkh, h⟩ := bind_ok.mp h
    obtain ⟨hlen, h⟩ := refuseIf_bind_ok.mp h
    cases h
    exact ⟨pkh, hpkh, not_not.mp hlen, rfl⟩
  · rintro ⟨pkh, hpkh, hlen, rfl⟩
    exact bind_ok.mpr ⟨pkh, hpkh, refuseIf_bind_ok.mpr ⟨not_not.mpr hlen, rfl⟩⟩

/-- The estimated fee for `k` inputs. -/
def estimatedFee (feeRate : Int) (k : Nat) : Int := feeRate * (78 + 148 * k)

/-- What is left for the change. -/
def changeOf (photons feeRate : Int) (selected : List WatchOnlyUtxo) : Int :=
  (selected.map WatchOnlyUtxo.value).sum - photons - estimatedFee feeRate
    selected.length

/-- What `build_send` has found out and put together when it returns. -/
structure Built (hd : HdCurve Key Secret) (acct : Xpub Key)
    (utxos : List WatchOnlyUtxo) (toAddress : String)
    (photons changeIndex changeChain feeRate : Int) (us : UnsignedSend)
    (selected : List WatchOnlyUtxo) (pkh changePkh : Bytes) : Prop where
  rate : 0 < feeRate
  index : 0 ≤ changeIndex
  recipient : addressToPublicKeyHash toAddress = .ok pkh
  recipientHash : pkh.length = 20
  change : ∃ chain child, acct.ckd hd changeChain = .ok chain ∧
    chain.ckd hd changeIndex = .ok child ∧
    addressToPublicKeyHash (child.address hd) = .ok changePkh
  changeHash : changePkh.length = 20
  selects : Selects photons feeRate (descending utxos) selected.length
  taken : selected =
    (sortDescending WatchOnlyUtxo.value utxos).take selected.length
  funded : 0 ≤ changeOf photons feeRate selected
  sent : (us.transaction.outputs, us.request.changeClaims) =
    sendOutputs (p2pkhHead ++ pkh ++ p2pkhTail) (p2pkhHead ++ changePkh ++
      p2pkhTail) photons
      (changeOf photons feeRate selected) changeChain changeIndex
  transaction : us.transaction = ⟨selected.map WatchOnlyUtxo.unsigned,
    us.transaction.outputs, 1, 0⟩
  written : ∃ raw, us.transaction.serialize = .ok raw ∧
    us.request.unsignedTxHex = hex raw
  inputs : us.request.inputs = selected.mapIdx fun i u => u.toSign i
  total : us.inputTotal = (selected.map WatchOnlyUtxo.value).sum

/-- The values of the first `k` chosen UTXOs are the `k` largest values. -/
theorem map_take_descending (utxos : List WatchOnlyUtxo) (k : Nat) :
    ((sortDescending WatchOnlyUtxo.value utxos).take k).map
      WatchOnlyUtxo.value = (descending utxos).take k := by
  rw [descending, List.map_take]

theorem length_descending (utxos : List WatchOnlyUtxo) :
    (descending utxos).length = utxos.length := by
  rw [descending, List.length_map, sortDescending, List.length_insertionSort]

/-- The coins that were taken are the first that suffice: the check after the
loop sees to it. -/
theorem select_ok {utxos selected : List WatchOnlyUtxo} {photons feeRate : Int}
    (hne : utxos ≠ [])
    (h : select utxos photons (p2pkhInputVbytes * feeRate)
      ((txOverheadVbytes + 2 * p2pkhOutputVbytes) * feeRate) = .ok selected)
    (hfunded : 0 ≤ changeOf photons feeRate selected) :
    selected = (sortDescending WatchOnlyUtxo.value utxos).take selected.length ∧
      Selects photons feeRate (descending utxos) selected.length := by
  have hbase : (txOverheadVbytes + 2 * p2pkhOutputVbytes) * feeRate =
      78 * feeRate := rfl
  rw [hbase, show p2pkhInputVbytes * feeRate = 148 * feeRate from rfl] at h
  obtain ⟨-, h⟩ := refuseIf_bind_ok.mp h
  cases h
  rw [takeCovering_take] at hfunded ⊢
  rw [changeOf] at hfunded
  -- the selection is a prefix of the sorted values, and the least that reaches
  have hcount : takenCount photons (78 * feeRate) (148 * feeRate) (descending
      utxos) ≤ utxos.length ∧ ((sortDescending WatchOnlyUtxo.value utxos).take
        (takenCount photons (78 * feeRate) (148 * feeRate)
          (descending utxos))).length =
        takenCount photons (78 * feeRate) (148 * feeRate)
          (descending utxos) := by
    have hle : takenCount photons (78 * feeRate) (148 * feeRate)
        (descending utxos) ≤ utxos.length := by
      rw [takenCount]
      cases hk : coverCount photons (78 * feeRate) (148 * feeRate) 0 0
          (descending utxos) with
      | none => rw [Option.getD_none, length_descending]
      | some k =>
        have hspec := (coverCount_some hk).2.1
        rw [length_descending] at hspec
        exact hspec
    refine ⟨hle, ?_⟩
    rw [List.length_take, sortDescending, List.length_insertionSort]
    omega
  rw [show (sortDescending WatchOnlyUtxo.value utxos).map WatchOnlyUtxo.value =
    descending utxos from rfl] at hfunded ⊢
  rw [map_take_descending, hcount.2] at hfunded
  rw [hcount.2]
  refine ⟨rfl, ?_⟩
  have hreach : Wallet.Reaches photons (78 * feeRate) (148 * feeRate)
      (descending utxos)
      (takenCount photons (78 * feeRate) (148 * feeRate)
        (descending utxos)) := by
    rw [Wallet.Reaches]
    rw [estimatedFee] at hfunded
    nlinarith [hfunded]
  have hpos : 0 < utxos.length := List.length_pos_iff.mpr hne
  cases hk : coverCount photons (78 * feeRate) (148 * feeRate) 0 0
      (descending utxos) with
  | none =>
    have htaken : takenCount photons (78 * feeRate) (148 * feeRate)
        (descending utxos) = utxos.length := by
      rw [takenCount, hk, Option.getD_none, length_descending]
    rw [htaken] at hreach
    exact absurd hreach (coverCount_none hk _ hpos (by rw [length_descending]))
  | some k =>
    have htaken : takenCount photons (78 * feeRate) (148 * feeRate)
        (descending utxos) = k := by
      rw [takenCount, hk, Option.getD_some]
    rw [htaken]
    obtain ⟨h1, h2, h3, h4⟩ := coverCount_some hk
    exact ⟨h1, h2, h3, h4⟩

/-- **What the builder returns.** -/
theorem buildSend_ok {acct : Xpub Key} {utxos : List WatchOnlyUtxo}
    {toAddress : String}
    {photons changeIndex changeChain feeRate : Int} {us : UnsignedSend}
    (h : buildSend hd acct utxos toAddress photons changeIndex changeChain
      feeRate = .ok us) :
    ∃ selected pkh changePkh,
      Built hd acct utxos toAddress photons changeIndex changeChain feeRate us
        selected pkh changePkh := by
  obtain ⟨-, h⟩ := refuseIf_bind_ok.mp h
  obtain ⟨-, h⟩ := refuseIf_bind_ok.mp h
  obtain ⟨-, h⟩ := refuseIf_bind_ok.mp h
  obtain ⟨hrate, h⟩ := refuseIf_bind_ok.mp h
  obtain ⟨hindex, h⟩ := refuseIf_bind_ok.mp h
  obtain ⟨-, h⟩ := refuseIf_bind_ok.mp h
  obtain ⟨hne, h⟩ := refuseIf_bind_ok.mp h
  obtain ⟨recipient, hrecipient, h⟩ := bind_ok.mp h
  obtain ⟨address, haddress, h⟩ := bind_ok.mp h
  obtain ⟨changeScript, hchange, h⟩ := bind_ok.mp h
  obtain ⟨selected, hselected, h⟩ := bind_ok.mp h
  -- the estimate always counts two outputs, with change or without
  have hfee : (txOverheadVbytes + 2 * p2pkhOutputVbytes) *
      feeRate + p2pkhInputVbytes * feeRate * selected.length =
      estimatedFee feeRate selected.length := by
    show 78 * feeRate + 148 * feeRate * selected.length =
      feeRate * (78 + 148 * selected.length)
    ring
  rw [hfee] at h
  obtain ⟨hfunded, h⟩ := refuseIf_bind_ok.mp h
  obtain ⟨pkh, hpkh, hlen, hscript⟩ := lockAddress_ok.mp hrecipient
  obtain ⟨changePkh, hchangePkh, hchangeLen, hchangeScript⟩ :=
    lockAddress_ok.mp hchange
  rw [hscript, hchangeScript] at h
  obtain ⟨chain, hchain, haddress⟩ := bind_ok.mp haddress
  obtain ⟨child, hchild, haddress⟩ := bind_ok.mp haddress
  have haddress : child.address hd = address := Except.ok.inj haddress
  rw [← haddress] at hchangePkh
  have hleft : 0 ≤ changeOf photons feeRate selected := by
    rw [changeOf]
    omega
  obtain ⟨htaken, hselects⟩ := select_ok hne hselected hleft
  rcases hsent : sendOutputs (p2pkhHead ++ pkh ++
    p2pkhTail) (p2pkhHead ++ changePkh ++ p2pkhTail) photons
    ((selected.map WatchOnlyUtxo.value).sum - photons - estimatedFee feeRate
    selected.length) changeChain changeIndex with ⟨outs, claims⟩
  dsimp only at h
  rw [hsent] at h
  obtain ⟨raw, hraw, h⟩ := bind_ok.mp h
  cases h
  exact ⟨selected, pkh, changePkh, {
    rate := Int.not_le.mp hrate
    index := Int.not_lt.mp hindex
    recipient := hpkh
    recipientHash := hlen
    change := ⟨chain, child, hchain, hchild, hchangePkh⟩
    changeHash := hchangeLen
    selects := hselects
    taken := htaken
    funded := hleft
    sent := hsent.symm
    transaction := rfl
    written := ⟨raw, hraw, rfl⟩
    inputs := rfl
    total := rfl }⟩

end Build

/-! ## What the signer reads -/

/-- The input that spends a UTXO, as it is parsed. -/
def WatchOnlyUtxo.parsed (u : WatchOnlyUtxo) : TransactionInput :=
  { u.unsigned with sourceTxid := (Lib.fromHex u.txid).map hex }

/-- An entry with a whole txid. -/
def WatchOnlyUtxo.HasTxid (u : WatchOnlyUtxo) : Prop :=
  ∃ txid, Lib.fromHex u.txid = some txid ∧ txid.length = 32

/-- A txid that is hex reads as its bytes, reversed. -/
theorem txidBytes_some {s : String} {b : Bytes} (h : Lib.fromHex s = some b) :
    txidBytes (some s) = .ok b.reverse := by
  rw [txidBytes, h]

/-- A written input is parsed without the spelling of its txid. -/
theorem inputOf_parsed {u : WatchOnlyUtxo} {w : WireIn} (htxid : u.HasTxid)
    (h : SameInput u.unsigned (inputOf w)) : inputOf w = u.parsed := by
  obtain ⟨txid, htxid, -⟩ := htxid
  have hspent : txidBytes (some (hex (w.prevout.val.take 32).reverse)) =
      .ok txid.reverse :=
    h.txid.trans (txidBytes_some htxid)
  rw [txidBytes_some (fromHex_hex _), Except.ok.injEq] at hspent
  have hparsed : u.parsed.sourceTxid = some (hex txid) := by
    show (Lib.fromHex u.txid).map hex = _
    rw [htxid]
    rfl
  have hw : inputOf w = ⟨some (hex (w.prevout.val.take 32).reverse),
    (inputOf w).sourceOutputIndex,
      (inputOf w).unlockingScript, (inputOf w).sequence, none, none,
        sighashAllForkid⟩ := rfl
  have hu : u.parsed = ⟨u.parsed.sourceTxid, u.vout, some [], 0xFFFFFFFF, none,
      none, sighashAllForkid⟩ := rfl
  rw [hw, hu, hparsed, List.reverse_injective hspent, h.index,
    h.script, h.sequence]
  rfl

/-- **The builder's transaction is read as it was built.** -/
theorem unsigned_read {selected : List WatchOnlyUtxo}
    {outs : List TransactionOutput} {raw : Bytes}
    (htxids : ∀ u ∈ selected, u.HasTxid)
    (h : Transaction.serialize ⟨selected.map WatchOnlyUtxo.unsigned, outs, 1,
      0⟩ = .ok raw) :
    Transaction.fromHex raw =
      some ⟨selected.map WatchOnlyUtxo.parsed, outs, 1, 0⟩ ∧
      Transaction.Fits ⟨selected.map WatchOnlyUtxo.parsed, outs, 1, 0⟩ := by
  have hfits := Transaction.fits_of_serialize h (fun i hi => by
    obtain ⟨u, hu, rfl⟩ := List.mem_map.mp hi
    obtain ⟨txid, htxid, hlen⟩ := htxids u hu
    exact ⟨txid.reverse, txidBytes_some htxid, by rw [List.length_reverse, hlen]⟩) (fun i hi => by
    obtain ⟨u, -, rfl⟩ := List.mem_map.mp hi
    rfl)
  obtain ⟨w, -, -, hser, hsame⟩ := hfits.serialize
  rw [h, Except.ok.injEq] at hser
  have hinputs : (txOf w).inputs = selected.map WatchOnlyUtxo.parsed := by
    have hins := hsame.inputs
    refine List.ext_getElem (by rw [← hins.length_eq, List.length_map,
      List.length_map]) fun k hk hk' => ?_
    have hks : k < selected.length := by rwa [List.length_map] at hk'
    have hpair :=
      (List.forall₂_iff_get.mp hins).2 k (by rwa [List.length_map]) hk
    rw [List.get_eq_getElem, List.get_eq_getElem] at hpair
    obtain ⟨x, -, hx⟩ := List.mem_map.mp (show (txOf w).inputs[k] ∈
      w.ins.items.map inputOf from List.getElem_mem hk)
    rw [← hx] at hpair ⊢
    rw [List.getElem_map] at hpair ⊢
    exact inputOf_parsed (htxids _ (List.getElem_mem hks)) hpair
  have htx : txOf w = ⟨(txOf w).inputs, (txOf w).outputs, (txOf w).version,
      (txOf w).locktime⟩ := rfl
  rw [hinputs, hsame.outputs, hsame.version, hsame.locktime] at htx
  refine ⟨by rw [hser, fromHex_stripped, htx], ?_⟩
  have hread := (readOf w).fits
  rw [readOf_tx, htx] at hread
  exact hread

/-! ## What the signer does -/

section Run

variable {Key Secret : Type} {hd : HdCurve Key Secret}
  {wallet : HdWallet Secret}

/-- A UTXO that names its source transaction has a txid of 32 bytes. -/
theorem Correct.hasTxid {u : WatchOnlyUtxo} {o : TransactionOutput}
    {key : PrivateKey Secret}
    (h : Correct hd wallet u o key) : u.HasTxid := by
  obtain ⟨srcBytes, src, -, htxid, -⟩ := h.source
  exact ⟨_, htxid, by rw [List.length_reverse,
    show (hash256 srcBytes).length = 32 from length_sha256 _]⟩

/-- A correct UTXO's entry is in order. -/
theorem Correct.inOrder (law : hd.Lawful) {u : WatchOnlyUtxo}
    {o : TransactionOutput} {key : PrivateKey Secret}
    (h : Correct hd wallet u o key) (i : Nat) :
    InOrder hd wallet u.parsed (u.toSign i) o key where
  source := by
    obtain ⟨srcBytes, src, hsource, htxid, hparse, ho⟩ := h.source
    refine ⟨srcBytes, src, hsource, ?_, hparse, u.inRange.1, ho⟩
    show (Lib.fromHex u.txid).map hex = _
    rw [htxid]
    rfl
  chain := h.chain
  index := ⟨u.inRange.2.2, h.index⟩
  derived := h.derived
  owner := h.owner
  hashed := law.ripemd_length _
  sighash := rfl

/-- The inputs that a request lists in order are all of them. -/
theorem coversAll_toSign (selected : List WatchOnlyUtxo) :
    coversAll (selected.mapIdx fun i u => u.toSign i) selected.length := by
  have hmap : (selected.mapIdx fun i u => u.toSign i).map
      InputToSign.inputIndex =
      (List.range selected.length).map Int.ofNat := by
    refine List.ext_getElem ?_ fun k hk hk' => ?_
    · rw [List.length_map, List.length_mapIdx, List.length_map,
        List.length_range]
    · rw [List.getElem_map, List.getElem_mapIdx, List.getElem_map,
        List.getElem_range]
      rfl
  rw [coversAll, hmap]
  refine List.Pairwise.insertionSort_eq ?_
  rw [List.pairwise_map]
  exact List.pairwise_le_range.imp fun h => Int.ofNat_le.mpr h

/-- An input of the draft that the signer prepares for a UTXO. -/
def PreparedFor (hd : HdCurve Key Secret) (wallet : HdWallet Secret)
    (u : WatchOnlyUtxo) (t : DraftInput Secret) : Prop :=
  ∃ o key, Correct hd wallet u o key ∧ t = ⟨attached u.parsed o, some key⟩

/-- The draft that the signer prepares for a send. -/
structure DraftOf (hd : HdCurve Key Secret) (wallet : HdWallet Secret)
    (us : UnsignedSend)
    (selected : List WatchOnlyUtxo) (d : Draft Secret) : Prop where
  inputs : List.Forall₂ (PreparedFor hd wallet) selected d.inputs
  outputs : d.outputs = us.transaction.outputs
  version : d.version = 1
  locktime : d.locktime = 0

section Honest

variable {acct : Xpub Key} {utxos selected : List WatchOnlyUtxo}
  {toAddress : String}
  {photons changeIndex changeChain feeRate : Int} {us : UnsignedSend}
  {pkh changePkh : Bytes}

/-- The chosen UTXOs are among those the account holds. -/
theorem Built.correct
    (hbuilt : Built hd acct utxos toAddress photons changeIndex
      changeChain feeRate us selected pkh changePkh)
    (hcorrect : ∀ u ∈ utxos, ∃ o key, Correct hd wallet u o key) :
    ∀ u ∈ selected, ∃ o key, Correct hd wallet u o key := by
  intro u hu
  rw [hbuilt.taken] at hu
  exact hcorrect u ((List.perm_insertionSort _ utxos).mem_iff.mp
    (List.mem_of_mem_take hu))

/-- The transaction of a send is read by the signer. -/
theorem Built.read
    (hbuilt : Built hd acct utxos toAddress photons changeIndex
      changeChain feeRate us selected pkh changePkh)
    (hcorrect : ∀ u ∈ utxos, ∃ o key, Correct hd wallet u o key) :
    ∃ raw, us.request.unsignedTxHex = hex raw ∧ Transaction.fromHex raw =
      some ⟨selected.map WatchOnlyUtxo.parsed, us.transaction.outputs, 1, 0⟩ ∧
    Transaction.Fits ⟨selected.map WatchOnlyUtxo.parsed,
      us.transaction.outputs, 1, 0⟩ := by
  obtain ⟨raw, hraw, hhex⟩ := hbuilt.written
  rw [hbuilt.transaction] at hraw
  obtain ⟨hread, hfits⟩ := unsigned_read (fun u hu => by
    obtain ⟨o, key, h⟩ := hbuilt.correct hcorrect u hu
    exact h.hasTxid) hraw
  exact ⟨raw, hhex, hread, hfits⟩

/-- **Everything up to the summary goes through.** -/
theorem draft_returns (law : hd.Lawful)
    (hbuilt : Built hd acct utxos toAddress photons changeIndex
      changeChain feeRate us selected pkh changePkh)
    (hcorrect : ∀ u ∈ utxos, ∃ o key, Correct hd wallet u o key) :
    ∃ d, DraftOf hd wallet us selected d ∧
      ∀ p, prepare hd wallet us.request = .ok p ↔
        ∃ s, summarize hd wallet d us.request = .ok s ∧ p = (d, s) := by
  have hmem := hbuilt.correct hcorrect
  obtain ⟨raw, hhex, hread, -⟩ := hbuilt.read hcorrect
  -- each chosen UTXO is prepared on its own
  have hready : ∀ u, ∃ t : DraftInput Secret, u ∈ selected →
      PreparedFor hd wallet u t := by
    intro u
    by_cases hu : u ∈ selected
    · obtain ⟨o, key, h⟩ := hmem u hu
      exact ⟨_, fun _ => ⟨o, key, h, rfl⟩⟩
    · exact ⟨⟨u.parsed, none⟩, fun h => absurd h hu⟩
  choose ready hready using hready
  have hne : selected ≠ [] := by
    rw [← List.length_pos_iff]
    exact hbuilt.selects.pos
  have houts : us.transaction.outputs ≠ [] := by
    intro hnil
    have hsent := congrArg Prod.fst hbuilt.sent
    rw [sendOutputs] at hsent
    split at hsent
    · rw [show us.transaction.outputs = _ from hsent] at hnil
      cases hnil
    · rw [show us.transaction.outputs = _ from hsent] at hnil
      cases hnil
  have hunsigned : parseUnsigned us.request =
      .ok (⟨selected.map fun u => ⟨u.parsed, none⟩, us.transaction.outputs, 1,
        0⟩ : Draft Secret) := by
    rw [parseUnsigned]
    refine bind_ok.mpr ⟨raw, by rw [hhex, bytesFromHex, fromHex_hex], ?_⟩
    rw [hread]
    dsimp only
    refine refuseIf_bind_ok.mpr ⟨?_, refuseIf_bind_ok.mpr ⟨?_, ?_⟩⟩
    · rw [List.map_eq_nil_iff]
      exact fun h => h.elim hne houts
    · rw [hbuilt.inputs, List.length_map]
      exact not_not.mpr (coversAll_toSign selected)
    · rw [List.map_map]
      rfl
  have hinputs := @prepareInputs_returns _ _ hd wallet _ WatchOnlyUtxo.parsed
      WatchOnlyUtxo.toSign ready
    ⟨[], us.transaction.outputs, 1, 0⟩ selected [] fun u hu i => by
      obtain ⟨o, key, h, ht⟩ := hready u hu
      exact ⟨rfl, by rw [ht]; exact (h.inOrder law i).prepared⟩
  simp only [List.nil_append, List.length_nil, Nat.zero_add] at hinputs
  refine ⟨⟨selected.map ready, us.transaction.outputs, 1, 0⟩,
    ⟨?_, rfl, rfl, rfl⟩, fun p => ?_⟩
  · rw [List.forall₂_map_right_iff, List.forall₂_same]
    exact hready
  · rw [prepare, hunsigned, ok_bind, hbuilt.inputs, hinputs, ok_bind, bind_ok]
    refine exists_congr fun s => and_congr_right fun _ => ?_
    rw [pure_eq_ok, Except.ok.injEq]
    exact eq_comm

/-! ## The summary of a send -/

/-- The summary names a P2PKH output by its 20-byte hash. -/
theorem destOf_lock {hash : Bytes} {value : Option Int} (h : hash.length = 20) :
    destOf ⟨p2pkhHead ++ hash ++ p2pkhTail, value⟩ = "p2pkh:" ++ hex hash := by
  rw [destOf, if_pos (Swap.isP2pkh_lock h).1, ownerOf_lock h]

/-- The wallet finds the change address that the builder paid. -/
theorem deriveAddress_of_xpub (law : hd.Lawful)
    (hacct : wallet.accountXpub hd = .ok acct) {change index : Int}
    {chain child : Xpub Key} (hchain : acct.ckd hd change = .ok chain)
    (hchild : chain.ckd hd index = .ok child) :
    wallet.deriveAddress hd change index = .ok (child.address hd) := by
  obtain ⟨y, hy, hpub⟩ := HdWallet.child_of_xpub law hacct hchain hchild
  exact bind_ok.mpr ⟨y, hy, by rw [law.address_eq hpub]; rfl⟩

/-- The claim about the change verifies as soon as its coordinates are in
range. -/
theorem verifyClaim_change (law : hd.Lawful)
    (hacct : wallet.accountXpub hd = .ok acct)
    (hbuilt : Built hd acct utxos toAddress photons changeIndex changeChain
      feeRate us selected pkh changePkh) {recipient : TransactionOutput}
    {value : Option Int} {n : Int} :
    verifyClaim hd wallet [recipient, ⟨p2pkhHead ++ changePkh ++ p2pkhTail,
      value⟩] ⟨1, changeChain, changeIndex⟩ = .ok n ↔
    n = 1 ∧ (changeChain = 0 ∨ changeChain = 1) ∧ 0 ≤ changeIndex ∧
    changeIndex ≤ maxDerivationIndex := by
  obtain ⟨chain, child, hchain, hchild, hpkh⟩ := hbuilt.change
  have haddress := deriveAddress_of_xpub law hacct hchain hchild
  have hverifies : ¬ (isP2pkh (p2pkhHead ++ changePkh ++ p2pkhTail) = false ∨
      ownerOf (p2pkhHead ++ changePkh ++ p2pkhTail) ≠ changePkh) := by
    rw [(Swap.isP2pkh_lock hbuilt.changeHash).1, ownerOf_lock hbuilt.changeHash]
    exact fun h => h.elim Bool.noConfusion fun h => h rfl
  show (do
    checkCoords changeChain changeIndex ("change claim " ++ toString (1 : Int))
    let addr ← wallet.deriveAddress hd changeChain changeIndex
    let claimPkh ← addressToPublicKeyHash addr
    refuseIf (isP2pkh (p2pkhHead ++ changePkh ++ p2pkhTail) = false ∨
        ownerOf (p2pkhHead ++ changePkh ++ p2pkhTail) ≠ claimPkh)
      ("change claim for output " ++ toString (1 : Int) ++
        " does not verify " ++
        "(output is not change to the claimed key)")
    pure (1 : Int)) = .ok n ↔ _
  constructor
  · intro h
    obtain ⟨_, hcoords, h⟩ := bind_ok.mp h
    rw [haddress, ok_bind, hpkh, ok_bind] at h
    obtain ⟨-, h⟩ := refuseIf_bind_ok.mp h
    cases h
    exact ⟨rfl, checkCoords_ok.mp hcoords⟩
  · rintro ⟨rfl, hcoords⟩
    refine bind_ok.mpr ⟨(), checkCoords_ok.mpr hcoords, ?_⟩
    rw [haddress, ok_bind, hpkh, ok_bind]
    exact refuseIf_bind_ok.mpr ⟨hverifies, rfl⟩

/-- The verified amounts are those of the UTXOs. -/
theorem DraftOf.amounts {d : Draft Secret}
    (h : DraftOf hd wallet us selected d) :
    d.inputs.mapM (fun t => amountOf t.input.satoshis) = .ok
      (selected.map WatchOnlyUtxo.value) := by
  have hall := h.inputs
  clear h
  revert hall
  generalize d.inputs = ts
  intro hall
  induction hall with
  | nil => rfl
  | cons ht _ ih =>
    obtain ⟨o, key, hcorrect, rfl⟩ := ht
    rw [List.mapM_cons, ih]
    show (amountOf o.satoshis >>= _) = _
    rw [hcorrect.value]
    rfl

/-- A summary is put together from the verified claims, the outputs and the
amounts. -/
theorem summarize_eq {d : Draft Secret} {request : SigningRequest}
    {own amounts : List Int}
    {external : List ExternalOutput} {change : Int}
    (hclaims : request.changeClaims.mapM (verifyClaim hd wallet d.outputs) =
      .ok own)
    (hattribute : attributeOutputs own 0 d.outputs = .ok (external, change))
    (hamounts : d.inputs.mapM (fun t => amountOf t.input.satoshis) =
      .ok amounts)
    (hfee : 0 ≤
      amounts.sum - change - (external.map ExternalOutput.amount).sum) :
    summarize hd wallet d request = .ok ⟨external,
      (external.map ExternalOutput.amount).sum, change, amounts.sum,
      amounts.sum - change - (external.map ExternalOutput.amount).sum,
      request.inputs.map InputToSign.sighash⟩ :=
  bind_ok.mpr ⟨own, hclaims,
    bind_ok.mpr ⟨(external, change), hattribute, bind_ok.mpr ⟨amounts, hamounts,
    refuseIf_bind_ok.mpr ⟨Int.not_lt.mpr hfee, rfl⟩⟩⟩⟩

/-- The payee is listed. -/
theorem attributeOutputs_payee {own : List Int} {rest : List TransactionOutput}
    {change : Int} (hlen : pkh.length = 20) (hown : ((0 : Nat) : Int) ∉ own)
    (hrest : attributeOutputs own 1 rest = .ok ([], change)) :
    attributeOutputs own 0 (⟨p2pkhHead ++ pkh ++ p2pkhTail,
      some photons⟩ :: rest) =
      .ok ([⟨0, "p2pkh:" ++ hex pkh, photons⟩], change) := by
  rw [attributeOutputs]
  refine bind_ok.mpr ⟨photons, rfl, ?_⟩
  rw [if_neg hown, destOf_lock hlen]
  refine refuseIf_bind_ok.mpr ⟨fun h => ?_, ?_⟩
  · rw [(Swap.isP2pkh_lock hlen).1] at h
    exact Bool.noConfusion h.1
  · rw [hrest]
    rfl

/-- A built spend was estimated at a fee rate that is not negative. -/
theorem estimatedFee_nonneg
    (hbuilt : Built hd acct utxos toAddress photons changeIndex changeChain
      feeRate us selected pkh changePkh) :
    0 ≤ estimatedFee feeRate selected.length := by
  have hrate := hbuilt.rate
  rw [estimatedFee]
  positivity

/-- **What the user is shown of a send without change**: one payee, and all the
rest is the fee. -/
theorem summarize_plain
    (hbuilt : Built hd acct utxos toAddress photons changeIndex
      changeChain feeRate us selected pkh changePkh)
    (hnone : changeOf photons feeRate selected < dustThreshold)
    {d : Draft Secret}
    (hdraft : DraftOf hd wallet us selected d) :
    summarize hd wallet d us.request = .ok ⟨[⟨0, "p2pkh:" ++ hex pkh, photons⟩],
      photons, 0, us.inputTotal, us.inputTotal - photons,
      us.request.inputs.map InputToSign.sighash⟩ := by
  have hsent := hbuilt.sent
  rw [sendOutputs, if_neg (Int.not_le.mpr hnone), Prod.mk.injEq] at hsent
  have hfunded := hbuilt.funded
  have hfee := estimatedFee_nonneg hbuilt
  rw [changeOf, ← hbuilt.total] at hfunded
  have heq := @summarize_eq _ _ hd wallet d us.request []
      (selected.map WatchOnlyUtxo.value)
    [⟨0, "p2pkh:" ++ hex pkh, photons⟩] 0 (by rw [hsent.2]; rfl)
    (by rw [hdraft.outputs,
      hsent.1]; exact attributeOutputs_payee hbuilt.recipientHash List.not_mem_nil rfl)
      hdraft.amounts (by
      rw [← hbuilt.total, List.map_singleton, List.sum_singleton]
      show 0 ≤ us.inputTotal - 0 - photons
      omega)
  rw [heq, ← hbuilt.total, List.map_singleton, List.sum_singleton, Int.sub_zero]

/-- **What the user is shown of a send with change**, once the signer finds its
key. -/
theorem summarize_change (law : hd.Lawful)
    (hacct : wallet.accountXpub hd = .ok acct)
    (hbuilt : Built hd acct utxos toAddress photons changeIndex changeChain
      feeRate us selected pkh changePkh)
    (hdue : dustThreshold ≤ changeOf photons feeRate selected)
    {d : Draft Secret}
    (hdraft : DraftOf hd wallet us selected d) {s : SpendSummary} :
    summarize hd wallet d us.request = .ok s ↔
      ((changeChain = 0 ∨ changeChain = 1) ∧ 0 ≤ changeIndex ∧
        changeIndex ≤ maxDerivationIndex) ∧
      s = ⟨[⟨0, "p2pkh:" ++ hex pkh, photons⟩], photons, changeOf photons
        feeRate selected, us.inputTotal, estimatedFee feeRate selected.length,
        us.request.inputs.map InputToSign.sighash⟩ := by
  have hsent := hbuilt.sent
  rw [sendOutputs, if_pos hdue, Prod.mk.injEq] at hsent
  have hfee : us.inputTotal - changeOf photons feeRate selected - photons =
      estimatedFee feeRate selected.length := by
    rw [changeOf, ← hbuilt.total]
    omega
  -- the one claim names output 1 and the coordinates the change was derived at
  have hclaims : ∀ own, us.request.changeClaims.mapM
      (verifyClaim hd wallet d.outputs) = .ok own ↔
      own = [1] ∧ (changeChain = 0 ∨ changeChain = 1) ∧ 0 ≤ changeIndex ∧
        changeIndex ≤ maxDerivationIndex := by
    intro own
    rw [hsent.2, hdraft.outputs, hsent.1, List.mapM_cons,
      List.mapM_nil, bind_ok]
    constructor
    · rintro ⟨n, hn, h⟩
      obtain ⟨rfl, hcoords⟩ := (verifyClaim_change law hacct hbuilt).mp hn
      cases h
      exact ⟨rfl, hcoords⟩
    · rintro ⟨rfl, hcoords⟩
      exact ⟨1, (verifyClaim_change law hacct hbuilt).mpr ⟨rfl, hcoords⟩, rfl⟩
  -- so it is verified exactly when the wallet owns that output
  have hshown : us.request.changeClaims.mapM (verifyClaim hd wallet d.outputs) =
      .ok [1] →
      summarize hd wallet d us.request =
        .ok ⟨[⟨0, "p2pkh:" ++ hex pkh, photons⟩], photons,
        changeOf photons feeRate selected, us.inputTotal, estimatedFee feeRate
          selected.length, us.request.inputs.map InputToSign.sighash⟩ := by
    intro hone
    have hrest : attributeOutputs [1] 1 [⟨p2pkhHead ++ changePkh ++ p2pkhTail,
        some (changeOf photons feeRate selected)⟩] = .ok ([],
          changeOf photons feeRate selected) := by
      show Except.ok (([] : List ExternalOutput),
        changeOf photons feeRate selected + 0) = _
      rw [Int.add_zero]
    have heq := @summarize_eq _ _ hd wallet d us.request [1]
        (selected.map WatchOnlyUtxo.value)
      [⟨0, "p2pkh:" ++ hex pkh, photons⟩]
        (changeOf photons feeRate selected) hone
      (by rw [hdraft.outputs,
        hsent.1]; exact attributeOutputs_payee hbuilt.recipientHash (by decide) hrest)
        hdraft.amounts (by
        rw [← hbuilt.total, List.map_singleton, List.sum_singleton, hfee]
        exact estimatedFee_nonneg hbuilt)
    rw [heq, ← hbuilt.total, List.map_singleton, List.sum_singleton, hfee]
  constructor
  · intro h
    obtain ⟨own, hown, -⟩ := bind_ok.mp h
    obtain ⟨rfl, hcoords⟩ := (hclaims own).mp hown
    exact ⟨hcoords, Except.ok.inj (h.symm.trans (hshown hown))⟩
  · rintro ⟨hcoords, rfl⟩
    exact hshown ((hclaims [1]).mpr ⟨rfl, hcoords⟩)

/-! ## The signed transaction -/

/-- Every key the wallet derives is a compressed one. -/
theorem privkeyFor_compressed {change index : Int} {key : PrivateKey Secret}
    (h : wallet.privkeyFor hd change index = .ok key) :
    key.compressed = true := by
  obtain ⟨child, -, h⟩ := bind_ok.mp h
  cases h
  rfl

/-- The output of a correct UTXO is worth what eight bytes can hold. -/
theorem Correct.value_lt {u : WatchOnlyUtxo} {o : TransactionOutput}
    {key : PrivateKey Secret}
    (h : Correct hd wallet u o key) : u.value < 256 ^ 8 := by
  obtain ⟨srcBytes, src, -, -, hparse, ho⟩ := h.source
  obtain ⟨w, -, rfl⟩ := fromHex_some.mp hparse
  obtain ⟨n, hn, -, hlt⟩ :=
    (w.fits.outputs o (List.mem_iff_getElem?.mpr ⟨_, ho⟩)).value
  rw [h.value, Option.some.injEq] at hn
  rw [hn]
  exact hlt

/-- The outputs of a send are P2PKH. -/
theorem Built.output
    (hbuilt : Built hd acct utxos toAddress photons changeIndex changeChain
      feeRate us selected pkh changePkh)
    {o : TransactionOutput} (ho : o ∈ us.transaction.outputs) :
    ∃ hash : Bytes, hash.length = 20 ∧
    o.lockingScript = p2pkhHead ++ hash ++ p2pkhTail := by
  have hsent := hbuilt.sent
  rw [sendOutputs] at hsent
  split at hsent
  · rw [Prod.mk.injEq] at hsent
    rw [hsent.1] at ho
    rcases List.mem_cons.mp ho with rfl | ho
    · exact ⟨pkh, hbuilt.recipientHash, rfl⟩
    · rw [List.mem_singleton.mp ho]
      exact ⟨changePkh, hbuilt.changeHash, rfl⟩
  · rw [Prod.mk.injEq] at hsent
    rw [hsent.1] at ho
    rw [List.mem_singleton.mp ho]
    exact ⟨pkh, hbuilt.recipientHash, rfl⟩

/-- The prepared draft can be signed. -/
theorem DraftOf.ready (law : hd.Lawful)
    (hbuilt : Built hd acct utxos toAddress photons changeIndex changeChain
      feeRate us selected pkh changePkh)
    {d : Draft Secret} (hdraft : DraftOf hd wallet us selected d)
    (hfits : Transaction.Fits ⟨selected.map WatchOnlyUtxo.parsed,
      us.transaction.outputs, 1, 0⟩) : d.Ready where
  version := by
    rw [hdraft.version]
    decide
  locktime := by
    rw [hdraft.locktime]
    decide
  inputs := by
    intro t ht
    obtain ⟨k, hk⟩ := List.mem_iff_getElem.mp ht
    obtain ⟨hk, rfl⟩ := hk
    have hks : k < selected.length := by rw [hdraft.inputs.length_eq]; exact hk
    obtain ⟨o, key, hcorrect, hprepared⟩ :=
      (List.forall₂_iff_get.mp hdraft.inputs).2 k hks hk
    rw [List.get_eq_getElem, List.get_eq_getElem] at hprepared
    rw [List.get_eq_getElem] at hcorrect
    have hfit := hfits.inputs _ (List.mem_map_of_mem (List.getElem_mem hks))
    have hlen : o.lockingScript.length < 256 ^ 8 := by
      have hhash : (hd.hash160 (hd.format (hd.publicKey key.secret)
          key.compressed)).length = 20 := law.ripemd_length _
      rw [hcorrect.owner, keyScript, Swap.length_lock hhash]
      decide
    rw [hprepared]
    exact {
      txid := hfit.txid
      index := hfit.index
      script := by
        show ([] : Bytes).length < 256 ^ 8
        decide
      sequence := hfit.sequence
      value := ⟨selected[k].value, hcorrect.value,
        Int.le_of_lt selected[k].positive, hcorrect.value_lt⟩
      lockingScript := ⟨o.lockingScript, rfl, hlen⟩
      sighash := by
        show sighashAllForkid < 256 ^ 4
        decide
      blank := rfl
      flag := rfl
      key := ⟨key, rfl, privkeyFor_compressed hcorrect.derived⟩ }
  outputs := by
    intro o ho
    rw [hdraft.outputs] at ho
    obtain ⟨hash, hlen, hscript⟩ := hbuilt.output ho
    obtain ⟨n, hn, hrange⟩ := (hfits.outputs o ho).value
    have ho' : o = ⟨p2pkhHead ++ hash ++ p2pkhTail,
        some n⟩ := by rw [← hscript, ← hn]
    rw [ho']
    exact Swap.countable_lock hlen hrange

/-- The size of a signed send. -/
def sentSize (t : Transaction) : Nat :=
  9 + (compactBytes t.inputs.length).length +
    (t.inputs.map fun i => inputSize (i.unlockingScript.getD [])).sum + 34 *
      t.outputs.length

/-- **The rest goes through as well**: the draft is signed, and what is read of
the result spends and pays what the builder wrote. -/
theorem finish_returns (law : hd.Lawful) (hsized : hd.toCurve.Sized)
    (hbuilt : Built hd acct utxos toAddress photons changeIndex changeChain
      feeRate us selected pkh changePkh)
    {d : Draft Secret} (hdraft : DraftOf hd wallet us selected d)
    (hfits : Transaction.Fits ⟨selected.map WatchOnlyUtxo.parsed,
      us.transaction.outputs, 1, 0⟩) :
    ∃ r raw t, finish hd us.request d = .ok r ∧
    Lib.fromHex r.signedTxHex = some raw ∧
      Transaction.fromHex raw = some t ∧
        List.Forall₂ SameOutpoint us.transaction.inputs t.inputs ∧
      t.outputs = us.transaction.outputs ∧ raw.length = sentSize t ∧
      ∀ i ∈ t.inputs, ∃ secret digest publicKey, publicKey.length = 33 ∧
        i.unlockingScript =
          some (Swap.scriptSig (hd.sign secret digest) publicKey) := by
  obtain ⟨inputs, hsign, hall⟩ :=
    Swap.sign_returns hsized (hdraft.ready law hbuilt hfits)
  -- every input of the signed draft is its UTXO's, with a script
  have hinput : ∀ (k : Nat) t', inputs[k]? = some t' →
      ∃ u secret digest publicKey, selected[k]? = some u ∧
      publicKey.length = 33 ∧ SameOutpoint u.unsigned t'.input ∧ t'.input.Fits ∧
      t'.input.unlockingScript =
        some (Swap.scriptSig (hd.sign secret digest) publicKey) := by
    intro k t' ht'
    obtain ⟨hk, hget⟩ := List.getElem?_eq_some_iff.mp ht'
    have hkd : k < d.inputs.length := by rw [hall.length_eq]; exact hk
    have hks : k < selected.length := by rw [hdraft.inputs.length_eq]; exact hkd
    obtain ⟨o, key, hcorrect, hprepared⟩ :=
      (List.forall₂_iff_get.mp hdraft.inputs).2 k hks hkd
    obtain ⟨key', digest, -, hsigned⟩ :=
      (List.forall₂_iff_get.mp hall).2 k hkd hk
    rw [List.get_eq_getElem, List.get_eq_getElem] at hprepared hsigned
    rw [List.get_eq_getElem] at hcorrect
    rw [hget, hprepared] at hsigned
    have hfit := hfits.inputs _ (List.mem_map_of_mem (List.getElem_mem hks))
    obtain ⟨txid, htxid, -⟩ := hcorrect.hasTxid
    have hpub := hsized.publicKey (hd.publicKey key'.secret)
    refine ⟨selected[k], key'.secret, digest, _, List.getElem?_eq_getElem hks,
      hpub, ?_, ?_, ?_⟩
    · rw [hsigned]
      refine ⟨?_, rfl⟩
      show txidBytes ((Lib.fromHex selected[k].txid).map hex) =
        txidBytes (some selected[k].txid)
      rw [htxid, Option.map_some, txidBytes_some htxid,
        txidBytes_some (fromHex_hex txid)]
    · rw [hsigned]
      refine ⟨hfit.txid, hfit.index, ?_, hfit.sequence⟩
      show (Swap.scriptSig (hd.sign key'.secret digest)
        (hd.format (hd.publicKey key'.secret) true)).length < 256 ^ 8
      have hsig := hsized.signature key'.secret digest
      rw [Swap.length_scriptSig hpub]
      omega
    · rw [hsigned]
      rfl
  have hentry : ∀ i ∈ inputs.map DraftInput.input, i.Fits ∧
      i.unlockingScript.isSome = true := by
    intro i hi
    obtain ⟨t', ht', rfl⟩ := List.mem_map.mp hi
    obtain ⟨k, hk⟩ := List.mem_iff_getElem?.mp ht'
    obtain ⟨u, secret, digest, publicKey, -, -, -, hfit, hscript⟩ :=
      hinput k t' hk
    exact ⟨hfit, by rw [hscript]; rfl⟩
  have hlength : inputs.length = selected.length := by rw [← hall.length_eq,
    ← hdraft.inputs.length_eq]
  have hsignedFits : Transaction.Fits ⟨inputs.map DraftInput.input,
      us.transaction.outputs, 1, 0⟩ := {
    version := hfits.version
    locktime := hfits.locktime
    inputs := fun i hi => (hentry i hi).1
    outputs := hfits.outputs
    inputsCount := by
      have hcount := hfits.inputsCount
      rw [List.length_map] at hcount ⊢
      rwa [hlength]
    outputsCount := hfits.outputsCount }
  obtain ⟨w, -, -, hser, hsame⟩ := hsignedFits.serialize
  have houts : (txOf w).outputs = us.transaction.outputs := hsame.outputs
  have hscripts : (txOf w).inputs.map (fun i => i.unlockingScript) =
      inputs.map fun t => t.input.unlockingScript := by
    refine List.ext_getElem ?_ fun k hk hk' => ?_
    · rw [List.length_map, ← hsame.inputs.length_eq, List.length_map,
        List.length_map]
    · rw [List.length_map] at hk hk'
      have hpair :=
        (List.forall₂_iff_get.mp hsame.inputs).2 k (by rwa [List.length_map]) hk
      rw [List.get_eq_getElem, List.get_eq_getElem, List.getElem_map] at hpair
      obtain ⟨u, secret, digest, publicKey, -, -, -, -, hscript⟩ :=
        hinput k _ (List.getElem?_eq_getElem hk')
      rw [List.getElem_map, List.getElem_map, hpair.script, hscript]
      rfl
  have hraw := Transaction.length_serialize hser hentry
  refine ⟨⟨hex w.stripped⟩, w.stripped, txOf w, ?_, fromHex_hex _,
    fromHex_stripped w, ?_, houts, ?_, ?_⟩
  · refine bind_ok.mpr ⟨_, hsign, ?_⟩
    obtain ⟨checked, hchecked⟩ : ∃ checked, us.request.inputs.mapM
        (checkSigned { d with inputs := inputs }) = .ok checked := by
      refine mapM_returns fun inp hinp => ?_
      rw [hbuilt.inputs] at hinp
      obtain ⟨k, hk, rfl⟩ := List.mem_mapIdx.mp hinp
      have hki : k < inputs.length := by rwa [hlength]
      obtain ⟨u, secret, digest, publicKey, -, -, -, -, hscript⟩ :=
        hinput k _ (List.getElem?_eq_getElem hki)
      refine ⟨(), refuseIf_ok.mpr ?_⟩
      show ¬ (inputs[((k : Nat) : Int).toNat]?.bind fun t =>
        t.input.unlockingScript) = none
      rw [Int.toNat_natCast, List.getElem?_eq_getElem hki,
        Option.bind_some, hscript]
      exact Option.some_ne_none _
    refine bind_ok.mpr ⟨checked, hchecked, bind_ok.mpr ⟨w.stripped, ?_, rfl⟩⟩
    rw [← hser]
    show Transaction.serialize ⟨inputs.map DraftInput.input, d.outputs,
      d.version, d.locktime⟩ = _
    rw [hdraft.outputs, hdraft.version, hdraft.locktime]
  · rw [hbuilt.transaction]
    refine List.forall₂_iff_get.mpr ⟨?_, fun k hk hk' => ?_⟩
    · rw [List.length_map, ← hsame.inputs.length_eq, List.length_map, hlength]
    · have hki : k <
          inputs.length := by rw [hlength]; rwa [List.length_map] at hk
      have hpair := (List.forall₂_iff_get.mp hsame.inputs).2 k
        (by rwa [List.length_map]) hk'
      obtain ⟨u, secret, digest, publicKey, hu, -, hoint, -, -⟩ :=
        hinput k _ (List.getElem?_eq_getElem hki)
      rw [List.get_eq_getElem, List.get_eq_getElem, List.getElem_map] at hpair
      obtain ⟨hks, hu⟩ := List.getElem?_eq_some_iff.mp hu
      rw [List.get_eq_getElem, List.get_eq_getElem, List.getElem_map, hu]
      exact ⟨hpair.txid.trans hoint.1, hpair.index.trans hoint.2⟩
  · have hmap : ((txOf w).inputs.map fun i =>
        inputSize (i.unlockingScript.getD [])) =
        (inputs.map DraftInput.input).map fun i =>
          inputSize (i.unlockingScript.getD []) := by
      have hcongr := congrArg (List.map fun x : Option Bytes =>
        inputSize (x.getD [])) hscripts
      rw [List.map_map, List.map_map] at hcongr
      rw [List.map_map]
      exact hcongr
    have hcount : (txOf w).inputs.length =
        (inputs.map DraftInput.input).length := hsame.inputs.length_eq.symm
    have houtSizes : (us.transaction.outputs.map fun o =>
        outputSize o.lockingScript).sum =
        34 * us.transaction.outputs.length := by
      refine sum_sizes_eq fun o ho => ?_
      obtain ⟨hash, hlen, hscript⟩ := hbuilt.output ho
      rw [hscript, Swap.outputSize_lock hlen]
    have houtCount : (compactBytes us.transaction.outputs.length).length =
        1 := by
      refine length_compactBytes_small ?_
      have hsent := hbuilt.sent
      rw [sendOutputs] at hsent
      split at hsent
      · rw [show us.transaction.outputs = _ from congrArg Prod.fst hsent]
        exact (by decide : 2 < 0xFD)
      · rw [show us.transaction.outputs = _ from congrArg Prod.fst hsent]
        exact (by decide : 1 < 0xFD)
    rw [hraw, sentSize, hmap, hcount, houts, houtSizes, houtCount]
    dsimp only
    omega
  · intro i hi
    have hmem : i.unlockingScript ∈ inputs.map fun t =>
        t.input.unlockingScript := by
      rw [← hscripts]
      exact List.mem_map_of_mem hi
    obtain ⟨t', ht', hscript'⟩ := List.mem_map.mp hmem
    obtain ⟨k, hk⟩ := List.mem_iff_getElem?.mp ht'
    obtain ⟨u, secret, digest, publicKey, -, hpub, -, -, hscript⟩ :=
      hinput k t' hk
    exact ⟨secret, digest, publicKey, hpub, by rw [← hscript', hscript]⟩

/-! ## Its size -/

/-- An input with a short signature push takes 148 bytes at most. -/
theorem inputSize_short {i : TransactionInput} {signature publicKey : Bytes}
    (hsig : signature.length ≤ 72)
    (hpub : publicKey.length = 33)
    (hscript : i.unlockingScript = some (Swap.scriptSig signature publicKey))
    (hshort : ∃ script sig pub, i.unlockingScript = some script ∧
      Swap.parseP2pkhScriptsig script = .ok (sig, pub) ∧ sig.length ≤ 72) :
    inputSize (i.unlockingScript.getD []) ≤ 148 := by
  obtain ⟨script, sig, pub, hsome, hparse, hle⟩ := hshort
  rw [hscript, Option.some.injEq] at hsome
  rw [← hsome, Swap.parseP2pkhScriptsig_scriptSig (Nat.le_trans hsig
    (by decide)) hpub, Except.ok.injEq, Prod.mk.injEq] at hparse
  rw [← hparse.1, List.length_append, List.length_singleton] at hle
  rw [hscript, Option.getD_some, Swap.inputSize_scriptSig hpub hsig]
  omega

/-- **Short signatures keep a send within its estimate**, up to the count of its
inputs. -/
theorem sentSize_le (hsized : hd.toCurve.Sized) {t : Transaction}
    (hscripts : ∀ i ∈ t.inputs, ∃ secret digest publicKey,
      publicKey.length = 33 ∧
      i.unlockingScript = some (Swap.scriptSig
        (hd.sign secret digest) publicKey)) (hshort : ShortSignatures t) :
        sentSize t ≤ 9 + (compactBytes t.inputs.length).length + 148 *
        t.inputs.length + 34 * t.outputs.length := by
  have hsum : (t.inputs.map fun i =>
      inputSize (i.unlockingScript.getD [])).sum ≤ 148 * t.inputs.length := by
    refine sum_sizes_le fun i hi => ?_
    obtain ⟨secret, digest, publicKey, hpub, hscript⟩ := hscripts i hi
    exact inputSize_short (hsized.signature secret digest) hpub
      hscript (hshort i hi)
  rw [sentSize]
  omega

/-- Signatures of 71 bytes use the estimate up. -/
theorem sentSize_eq (h71 : ∀ secret digest, (hd.sign secret digest).length = 71)
    {t : Transaction}
    (hscripts : ∀ i ∈ t.inputs, ∃ secret digest publicKey,
      publicKey.length = 33 ∧
      i.unlockingScript =
        some (Swap.scriptSig (hd.sign secret digest) publicKey)) :
    ShortSignatures t ∧
      sentSize t = 9 + (compactBytes t.inputs.length).length + 148 *
        t.inputs.length + 34 * t.outputs.length := by
  have hsum : (t.inputs.map fun i =>
      inputSize (i.unlockingScript.getD [])).sum = 148 * t.inputs.length := by
    refine sum_sizes_eq fun i hi => ?_
    obtain ⟨secret, digest, publicKey, hpub, hscript⟩ := hscripts i hi
    have hlen := h71 secret digest
    rw [hscript, Option.getD_some,
      Swap.inputSize_scriptSig hpub (by omega), hlen]
  refine ⟨fun i hi => ?_, by rw [sentSize, hsum]⟩
  obtain ⟨secret, digest, publicKey, hpub, hscript⟩ := hscripts i hi
  have hlen := h71 secret digest
  refine ⟨_, _, _, hscript,
    Swap.parseP2pkhScriptsig_scriptSig (by omega) hpub, ?_⟩
  rw [List.length_append, hlen, List.length_singleton]

/-! ## The whole run -/

/-- The change of a send can be found by the signer, and its inputs are counted
in one byte. -/
def ChangeFound (changeIndex changeChain : Int) (k : Nat) : Prop :=
  (changeChain = 0 ∨ changeChain = 1) ∧
    changeIndex ≤ maxDerivationIndex ∧ k < 0xFD

/-- The change output stands exactly when it is not dust. -/
theorem Built.outputs_length
    (hbuilt : Built hd acct utxos toAddress photons changeIndex changeChain
      feeRate us selected pkh changePkh) : us.transaction.outputs.length =
      if dustThreshold ≤ changeOf photons feeRate selected then 2 else 1 := by
  have hsent := congrArg (fun p => p.1.length) hbuilt.sent
  rw [sendOutputs] at hsent
  split at hsent
  · next hdue => rw [if_pos hdue]; exact hsent
  · next hdue => rw [if_neg hdue]; exact hsent

/-- A run that goes through, by its parts. -/
theorem honoured_of (law : hd.Lawful) (hsized : hd.toCurve.Sized)
    (hbuilt : Built hd acct utxos toAddress photons changeIndex
      changeChain feeRate us selected pkh changePkh)
    (hcorrect : ∀ u ∈ utxos, ∃ o key, Correct hd wallet u o key)
    {s : SpendSummary}
    (hsummary : ∀ d, DraftOf hd wallet us selected d →
      summarize hd wallet d us.request = .ok s)
    (hexternal : s.externalOutputs = [⟨0, "p2pkh:" ++ hex pkh, photons⟩])
    (htotal : s.inputTotal = us.inputTotal) (hfee : feeRate *
      (9 + (compactBytes selected.length).length + 148 * selected.length +
      34 * us.transaction.outputs.length : Nat) ≤ s.fee) :
    Honoured hd wallet us toAddress photons feeRate := by
  obtain ⟨d, hdraft, hprepare⟩ := draft_returns law hbuilt hcorrect
  obtain ⟨-, -, -, hfits⟩ := hbuilt.read hcorrect
  obtain ⟨r, raw, t, hfinish, hraw, ht, hoints, houts, hlength, hscripts⟩ :=
    finish_returns law hsized hbuilt hdraft hfits
  refine ⟨s, d, r, raw, t, pkh, ?_, hraw, ht, hoints, houts, hbuilt.recipient,
    hexternal, htotal, fun hshort => ?_⟩
  · rw [sign_agreed ((hprepare (d, s)).mpr ⟨s, hsummary d hdraft, rfl⟩) rfl,
      hfinish]
  · have hcount : t.inputs.length = selected.length := by
      rw [← hoints.length_eq, hbuilt.transaction, List.length_map]
    have hle := sentSize_le hsized hscripts hshort
    rw [hcount, houts, ← hlength] at hle
    have hrate := hbuilt.rate
    calc feeRate * (raw.length : Int)
        ≤ feeRate * (9 + (compactBytes selected.length).length + 148 *
          selected.length +
            34 * us.transaction.outputs.length : Nat) :=
          mul_le_mul_of_nonneg_left (Int.ofNat_le.mpr hle) (Int.le_of_lt hrate)
      _ ≤ s.fee := hfee

/-- **A send goes through** without change, or with change that is found. -/
theorem send_honoured (law : hd.Lawful) (hsized : hd.toCurve.Sized)
    (hacct : wallet.accountXpub hd = .ok acct)
    (hbuilt : Built hd acct utxos toAddress photons changeIndex
      changeChain feeRate us selected pkh changePkh)
    (hcorrect : ∀ u ∈ utxos, ∃ o key, Correct hd wallet u o key)
    (h : changeOf photons feeRate selected < dustThreshold ∨
      ChangeFound changeIndex changeChain selected.length) :
    Honoured hd wallet us toAddress photons feeRate := by
  have hrate := hbuilt.rate
  have hcompact := length_compactBytes_range selected.length
  have houtputs := hbuilt.outputs_length
  -- the condition asks for the change chain only where there is change
  by_cases hdue : dustThreshold ≤ changeOf photons feeRate selected
  · obtain ⟨hchain, hle, hcount⟩ := h.resolve_left (Int.not_lt.mpr hdue)
    rw [if_pos hdue] at houtputs
    refine honoured_of law hsized hbuilt hcorrect (fun d hdraft =>
      (summarize_change law hacct hbuilt hdue hdraft).mpr ⟨⟨hchain,
      hbuilt.index, hle⟩, rfl⟩) rfl rfl ?_
    show feeRate * _ ≤ estimatedFee feeRate selected.length
    rw [houtputs, length_compactBytes_small hcount, estimatedFee]
    refine mul_le_mul_of_nonneg_left ?_ (Int.le_of_lt hrate)
    omega
  · rw [if_neg hdue] at houtputs
    refine honoured_of law hsized hbuilt hcorrect (fun d hdraft =>
      summarize_plain hbuilt (Int.not_le.mp hdue) hdraft) rfl rfl ?_
    have hfunded := hbuilt.funded
    rw [changeOf, ← hbuilt.total, estimatedFee] at hfunded
    have hsize : feeRate * ((9 + (compactBytes selected.length).length +
        148 * selected.length + 34 * 1 : Nat) : Int) ≤
        feeRate * (78 + 148 * selected.length) := by
      refine mul_le_mul_of_nonneg_left ?_ (Int.le_of_lt hrate)
      omega
    show feeRate * _ ≤ us.inputTotal - photons
    rw [houtputs]
    omega

/-- **No other send goes through** when signatures take the bytes they may. -/
theorem of_honoured (law : hd.Lawful)
    (h71 : ∀ secret digest, (hd.sign secret digest).length = 71)
    (hacct : wallet.accountXpub hd = .ok acct)
    (hbuilt : Built hd acct utxos toAddress photons changeIndex
      changeChain feeRate us selected pkh changePkh)
    (hcorrect : ∀ u ∈ utxos, ∃ o key, Correct hd wallet u o key)
    (h : Honoured hd wallet us toAddress photons feeRate) :
    changeOf photons feeRate selected < dustThreshold ∨
    ChangeFound changeIndex changeChain selected.length := by
  by_cases hdue : dustThreshold ≤ changeOf photons feeRate selected
  · refine .inr ?_
    obtain ⟨d, hdraft, hprepare⟩ := draft_returns law hbuilt hcorrect
    obtain ⟨-, -, -, hfits⟩ := hbuilt.read hcorrect
    have hsized : hd.toCurve.Sized := ⟨fun secret digest => by
      have := h71 secret digest
      omega, law.format_length⟩
    obtain ⟨r, raw, t, hfinish, hraw, ht, hoints, houts, hlength, hscripts⟩ :=
      finish_returns law hsized hbuilt hdraft hfits
    obtain ⟨s, d', r', raw', t', pkh', hrun, hraw', ht', -, -, -,
        -, -, hfee⟩ := h
    -- the run that is claimed is the one that was prepared
    obtain ⟨p, hp⟩ : ∃ p, prepare hd wallet us.request = .ok p := by
      cases hp : prepare hd wallet us.request with
      | error e =>
        unfold AgentSigner.sign at hrun
        rw [hp] at hrun
        cases hrun
      | ok p => exact ⟨p, rfl⟩
    obtain ⟨s'', hsummary, rfl⟩ := (hprepare p).mp hp
    rw [sign_agreed hp rfl, hfinish, Prod.mk.injEq] at hrun
    obtain ⟨hevents, hresult⟩ := hrun
    cases hresult
    rw [List.cons.injEq, Event.asked.injEq] at hevents
    rw [hevents.1.1] at hsummary
    rw [hraw, Option.some.injEq] at hraw'
    rw [← hraw', ht, Option.some.injEq] at ht'
    obtain ⟨⟨hchain, -, hle⟩, hs⟩ :=
      (summarize_change law hacct hbuilt hdue hdraft).mp hsummary
    refine ⟨hchain, hle, ?_⟩
    obtain ⟨hshort, hsize⟩ := sentSize_eq h71 hscripts
    have hcount : t.inputs.length = selected.length := by
      rw [← hoints.length_eq, hbuilt.transaction, List.length_map]
    have houtputs := hbuilt.outputs_length
    rw [if_pos hdue] at houtputs
    have hpaid := hfee (by rw [← ht']; exact hshort)
    rw [← hraw', hlength, hsize, hs, hcount, houts, houtputs] at hpaid
    have hbound : ((9 + (compactBytes selected.length).length + 148 *
      selected.length + 34 * 2 : Nat) : Int) ≤
        78 + 148 * selected.length := le_of_mul_le_mul_left hpaid hbuilt.rate
    by_contra hlarge
    have := length_compactBytes_large (Nat.not_lt.mp hlarge)
    omega
  · exact .inl (Int.not_le.mp hdue)

/-- **Change that the signer cannot find stops the run.** -/
theorem send_refused (law : hd.Lawful)
    (hacct : wallet.accountXpub hd = .ok acct)
    (hbuilt : Built hd acct utxos toAddress photons changeIndex
      changeChain feeRate us selected pkh changePkh)
    (hcorrect : ∀ u ∈ utxos, ∃ o key, Correct hd wallet u o key)
    (hdue : dustThreshold ≤ changeOf photons feeRate selected)
    (hlost : ¬ ((changeChain = 0 ∨ changeChain = 1) ∧
      changeIndex ≤ maxDerivationIndex))
    (confirm : SpendSummary → Except PyErr Bool) :
    ∃ e, AgentSigner.sign hd wallet us.request confirm = ([], .error e) := by
  obtain ⟨d, hdraft, hprepare⟩ := draft_returns law hbuilt hcorrect
  cases hp : prepare hd wallet us.request with
  | error e =>
    refine ⟨e, ?_⟩
    unfold AgentSigner.sign
    rw [hp]
  | ok p =>
    obtain ⟨s, hsummary, -⟩ := (hprepare p).mp hp
    obtain ⟨⟨hchain, -, hle⟩, -⟩ :=
      (summarize_change law hacct hbuilt hdue hdraft).mp hsummary
    exact absurd ⟨hchain, hle⟩ hlost

end Honest

/-! ## Main theorem -/

/-- The least sufficient prefix is unique. -/
theorem Selects.unique {photons feeRate : Int} {values : List Int}
    {j k : Nat} (hj : Selects photons feeRate values j)
    (hk : Selects photons feeRate values k) : j = k := by
  rcases Nat.lt_trichotomy j k with h | h | h
  · exact absurd hj.reaches (hk.first j hj.pos h)
  · exact h
  · exact absurd hk.reaches (hj.first k hk.pos h)

/-- Putting another signing function in keeps the laws of the derivation. -/
theorem lawful_signingBy (law : hd.Lawful) (sgn : Secret → Bytes → Bytes) :
    (signingBy hd sgn).Lawful where
  ripemd_length := law.ripemd_length
  hmac_length := law.hmac_length
  format_length := law.format_length
  parse_format := law.parse_format
  secret_length := law.secret_length
  parse_secret := law.parse_secret
  scalar_lt := law.scalar_lt
  fromInt_scalar := law.fromInt_scalar
  fromPoint_point := law.fromPoint_point
  multiply_base := law.multiply_base
  combine_points := law.combine_points

/-- Correct coordinates do not depend on how signatures are made. -/
theorem correct_signingBy {u : WatchOnlyUtxo} {o : TransactionOutput}
    {key : PrivateKey Secret}
    (h : Correct hd wallet u o key) (sgn : Secret → Bytes → Bytes) :
    Correct (signingBy hd sgn) wallet u o key :=
  ⟨h.source, h.value, h.chain, h.index, h.derived, h.owner⟩

end Run

/-- **Which sends the agent honours.** A send that the builder has put together
from correct UTXOs is signed as it was meant, whatever the signatures, exactly
if it needs no change, or its change is at coordinates that the signer accepts
and its inputs are fewer than 253. -/
theorem send_honoured_iff {Key Secret : Type} {hd : HdCurve Key Secret}
    (law : hd.Lawful) {wallet : HdWallet Secret} {acct : Xpub Key}
    (hacct : wallet.accountXpub hd = .ok acct) {utxos : List WatchOnlyUtxo}
    (hcorrect : ∀ u ∈ utxos, ∃ o key, Correct hd wallet u o key)
    {toAddress : String}
    {photons changeIndex changeChain feeRate : Int} {us : UnsignedSend}
    (hbuild : buildSend hd acct utxos toAddress photons changeIndex changeChain
      feeRate = .ok us) :
    (∀ sgn : Secret → Bytes →
      Bytes, (∀ secret digest, (sgn secret digest).length ≤ 72) →
      Honoured (signingBy hd sgn) wallet us toAddress photons feeRate) ↔
    ∀ k, Selects photons feeRate (descending utxos) k →
      ((descending utxos).take k).sum - photons - feeRate * (78 + 148 * k) <
        dustThreshold ∨
        ChangeFound changeIndex changeChain k := by
  have hfor : ∀ sgn : Secret → Bytes → Bytes, ∃ selected pkh changePkh, Built
      (signingBy hd sgn) acct utxos toAddress photons changeIndex changeChain
      feeRate us selected pkh changePkh := fun sgn => buildSend_ok hbuild
  have hleft : ∀ {selected : List WatchOnlyUtxo},
      selected = (sortDescending WatchOnlyUtxo.value utxos).take
        selected.length →
      changeOf photons feeRate selected =
        ((descending utxos).take selected.length).sum - photons - feeRate *
          (78 + 148 * selected.length) := by
    intro selected htaken
    rw [← map_take_descending, ← htaken]
    rfl
  constructor
  · intro h k hk
    let sgn : Secret → Bytes → Bytes := fun _ _ => List.replicate 71 0x30
    have h71 : ∀ secret digest, (sgn secret digest).length = 71 :=
      fun _ _ => List.length_replicate
    obtain ⟨selected, pkh, changePkh, hbuilt⟩ := hfor sgn
    have hcond := of_honoured (lawful_signingBy law sgn) h71 hacct hbuilt
      (fun u hu => (hcorrect u hu).imp fun o ho => ho.imp fun key hkey =>
        correct_signingBy hkey sgn)
      (h sgn fun secret digest =>
        Nat.le_succ_of_le (Nat.le_of_eq (h71 secret digest)))
    rw [hleft hbuilt.taken, hbuilt.selects.unique hk] at hcond
    exact hcond
  · intro h sgn hsgn
    obtain ⟨selected, pkh, changePkh, hbuilt⟩ := hfor sgn
    refine send_honoured (lawful_signingBy law sgn) ⟨hsgn,
      law.format_length⟩ hacct hbuilt
      (fun u hu => (hcorrect u hu).imp fun o ho => ho.imp fun key hkey =>
        correct_signingBy hkey sgn) ?_
    rw [hleft hbuilt.taken]
    exact h _ hbuilt.selects

/-! ## Two sends -/

/-- The wallet's first address holds 100000 photons. -/
def sampleUtxo : WatchOnlyUtxo where
  txid := hex sampleHash.reverse
  vout := 0
  value := 100000
  change := 0
  index := 0
  sourceTxHex := hex sampleSource
  positive := by decide
  inRange := by decide
  hasSource := by
    intro hnil
    have hread := fromHex_hex sampleSource
    rw [hnil] at hread
    cases hread

def samplePkh : Bytes := List.replicate 20 0x44

def samplePayee : String :=
  base58checkEncode (Network.mainnet.addressPrefix :: samplePkh)

/-- The sample UTXO is an output the sample wallet owns. -/
theorem correct_sample (signature : Bytes → Bytes) :
    ∀ u ∈ [sampleUtxo], ∃ o key, Correct
      (sampleHd signature) sampleWallet u o key := by
  intro u hu
  rw [List.mem_singleton.mp hu]
  have horder := inOrder_sample signature 0
  refine ⟨receiveOutput, receiveKey,
    ⟨sampleSource, _, fromHex_hex sampleSource, ?_, fromHex_sampleSource, rfl⟩,
    rfl, .inl rfl, by decide, horder.derived, horder.owner⟩
  rw [hash256_sampleSource]
  exact fromHex_hex _

/-- The address that base58check makes of a hash locks to that hash. -/
theorem lockAddress_encode (network : Network) {hash : Bytes}
    (hlen : hash.length = 20) :
    lockAddress (base58checkEncode (network.addressPrefix :: hash)) = .ok
      (p2pkhHead ++ hash ++ p2pkhTail) := by
  refine lockAddress_ok.mpr ⟨hash, ?_, hlen, rfl⟩
  rw [addressToPublicKeyHash, decodeAddress_encode network hlen]
  rfl

/-- The sample transaction stays within the wire widths. -/
theorem fits_sample {hash : Bytes} (hlen : hash.length = 20) :
    Transaction.Fits ⟨[sampleUtxo.unsigned],
    [⟨p2pkhHead ++ samplePkh ++ p2pkhTail, some 50000⟩,
      ⟨p2pkhHead ++ hash ++ p2pkhTail, some 49774⟩], 1, 0⟩ where
  version := (by decide : (0 : Int) ≤ 1 ∧ (1 : Int) < 256 ^ 4)
  locktime := (by decide : (0 : Int) ≤ 0 ∧ (0 : Int) < 256 ^ 4)
  inputs := by
    intro i hi
    rw [List.mem_singleton.mp hi]
    exact ⟨⟨sampleHash, txidBytes_hex sampleHash,
      rfl⟩, by decide, by decide, by decide⟩
  outputs := by
    intro o ho
    rcases List.mem_cons.mp ho with rfl | ho
    · exact (Swap.countable_lock (show samplePkh.length = 20
        from rfl) (by decide)).toFits
    · rw [List.mem_singleton.mp ho]
      exact (Swap.countable_lock hlen (by decide)).toFits
  inputsCount := by
    show 1 < 256 ^ 8
    decide
  outputsCount := by
    show 2 < 256 ^ 8
    decide

/-- The builder sends 50000 photons of it, with change at any index it can
derive. -/
theorem buildSend_sample {signature : Bytes → Bytes}
    {acct chain child : Xpub SampleKey} {index : Int}
    (hchain : acct.ckd (sampleHd signature) 1 = .ok chain)
    (hchild : chain.ckd (sampleHd signature) index = .ok child)
    (hindex : 0 ≤ index) : ∃ us, buildSend (sampleHd signature) acct
      [sampleUtxo] samplePayee 50000 index 1 1 = .ok us := by
  have hpayee : lockAddress samplePayee = .ok _ :=
    lockAddress_encode .mainnet (show samplePkh.length = 20 from rfl)
  have hlen : ((sampleHd signature).hash160
      ((sampleHd signature).format child.key true)).length = 20 :=
    (sampleHd_lawful signature).ripemd_length _
  have hchange : lockAddress (child.address (sampleHd signature)) = .ok _ :=
    lockAddress_encode child.network hlen
  have hvalid : validateAddress samplePayee = true := by
    rw [validateAddress, samplePayee, decodeAddress_encode .mainnet rfl]
    rfl
  have hselect : select [sampleUtxo] 50000 (p2pkhInputVbytes * 1)
      ((txOverheadVbytes + 2 * p2pkhOutputVbytes) * 1) = .ok [sampleUtxo] := rfl
  obtain ⟨w, -, -, hraw, -⟩ := (fits_sample hlen).serialize
  refine refuseIf_returns (by decide) (refuseIf_returns (by decide)
    (refuseIf_returns ?_ (refuseIf_returns (by decide) (refuseIf_returns
    (Int.not_lt.mpr hindex) (refuseIf_returns (by decide) (refuseIf_returns
    (List.cons_ne_nil _ _) (bind_returns hpayee (bind_returns (bind_ok.mpr
    ⟨chain, hchain, bind_ok.mpr ⟨child, hchild, rfl⟩⟩) (bind_returns hchange
    (bind_returns hselect (refuseIf_returns (by decide) ?_)))))))))))
  · rw [hvalid]
    exact Bool.noConfusion
  · exact bind_returns hraw ⟨_, rfl⟩

/-- What the wallet's `Xpub` derives on its change chain. -/
theorem derived_sample {signature : Bytes → Bytes} {index : Int} (h : (do
    let acct ← sampleWallet.accountXpub (sampleHd signature)
    let chain ← acct.ckd (sampleHd signature) 1
    chain.ckd (sampleHd signature) index).isOk = true) : ∃ acct chain child,
      sampleWallet.accountXpub (sampleHd signature) = .ok acct ∧
        acct.ckd (sampleHd signature) 1 = .ok chain ∧
        chain.ckd (sampleHd signature) index = .ok child := by
  obtain ⟨child, h⟩ := isOk_iff.mp h
  obtain ⟨acct, hacct, h⟩ := bind_ok.mp h
  obtain ⟨chain, hchain, hchild⟩ := bind_ok.mp h
  exact ⟨acct, chain, child, hacct, hchain, hchild⟩

/-- **Change at index 100001 is built and not signed.** -/
theorem send_refused_late : ∃ acct us, sampleWallet.accountXpub
    (sampleHd id) = .ok acct ∧
    (∀ u ∈ [sampleUtxo], ∃ o key, Correct (sampleHd id) sampleWallet u o key) ∧
    buildSend (sampleHd id) acct
      [sampleUtxo] samplePayee 50000 100001 1 1 = .ok us ∧
    ∀ confirm r, (AgentSigner.sign (sampleHd id) sampleWallet us.request
      confirm).2 ≠ .ok r := by
  obtain ⟨acct, chain, child, hacct, hchain, hchild⟩ :=
    @derived_sample id 100001 (by decide)
  obtain ⟨us, hbuild⟩ := buildSend_sample hchain hchild (by decide)
  refine ⟨acct, us, hacct, correct_sample id, hbuild, fun confirm r h => ?_⟩
  obtain ⟨selected, pkh, changePkh, hbuilt⟩ := buildSend_ok hbuild
  have hone : selected = [sampleUtxo] := by
    have hpos := hbuilt.selects.pos
    have htaken := hbuilt.taken
    rw [show sortDescending WatchOnlyUtxo.value [sampleUtxo] =
      [sampleUtxo] from rfl,
      List.take_of_length_le hpos] at htaken
    exact htaken
  have hdue : dustThreshold ≤ changeOf 50000 1 selected := by
    rw [hone]
    decide
  obtain ⟨e, hrun⟩ := send_refused (sampleHd_lawful id) hacct hbuilt
    (correct_sample id) hdue (by decide) confirm
  rw [hrun] at h
  cases h

/-- Change at index 0 is. -/
theorem send_honoured_first : ∃ acct us, sampleWallet.accountXpub
    (sampleHd id) = .ok acct ∧
    buildSend (sampleHd id) acct [sampleUtxo] samplePayee 50000 0 1 1 = .ok us ∧
    ∀ sgn : SampleKey → Bytes →
    Bytes, (∀ secret digest, (sgn secret digest).length ≤ 72) →
      Honoured (signingBy (sampleHd id) sgn) sampleWallet us
        samplePayee 50000 1 := by
  obtain ⟨acct, chain, child, hacct, hchain, hchild⟩ :=
    @derived_sample id 0 (by decide)
  obtain ⟨us, hbuild⟩ := buildSend_sample hchain hchild (by decide)
  refine ⟨acct, us, hacct, hbuild, (send_honoured_iff (sampleHd_lawful id) hacct
    (correct_sample id) hbuild).mpr ?_⟩
  intro k hk
  refine .inr ⟨.inr rfl, by decide, ?_⟩
  have hle := hk.le
  rw [length_descending, List.length_singleton] at hle
  omega

end Pyrxd.Agent
