import Pyrxd.Lib.ScriptCode
import Pyrxd.Swap.P2pkhSpend

/-!
# The size of what is signed

Signing a draft of P2PKH inputs changes only its unlocking scripts, and each of
those is a signature and a public key, both pushed. So how long the signed
transaction will be is known up to the lengths of its signatures (`sign_size`),
whatever the digests are.
-/

namespace Pyrxd.Glyph

open Pyrxd.Lib Pyrxd.Tx Pyrxd.Swap

variable {Key Secret : Type}

/-! ## Unlocking scripts -/

section Size

/-- `x` fails where `y` does, and is `k` bytes longer. -/
def Longer (k : Nat) (x y : Except PyErr Bytes) : Prop :=
  x.map List.length = y.map fun b => b.length + k

/-- Two serialisations that differ by a fixed length succeed together. -/
theorem Longer.ok_iff {k n : Nat} {x y : Except PyErr Bytes}
    (h : Longer k x y) :
    (∃ b, x = .ok b ∧ b.length = n + k) ↔ ∃ b, y = .ok b ∧ b.length = n := by
  cases x with
  | error e =>
    cases y with
    | error e' =>
      constructor
      · rintro ⟨b, hb, -⟩
        cases hb
      · rintro ⟨b, hb, -⟩
        cases hb
    | ok b => cases h
  | ok a =>
    cases y with
    | error e => cases h
    | ok b =>
      have hlen : a.length = b.length + k := Except.ok.inj h
      constructor
      · rintro ⟨c, hc, hn⟩
        cases hc
        exact ⟨b, rfl, by omega⟩
      · rintro ⟨c, hc, hn⟩
        cases hc
        exact ⟨a, rfl, by omega⟩

theorem longer_ok {k : Nat} {a b : Bytes} (h : a.length = b.length + k) :
    Longer k (.ok a : Except PyErr Bytes) (.ok b) :=
  congrArg Except.ok h

/-- The difference adds up along two steps. -/
theorem Longer.bind {j k : Nat} {x y : Except PyErr Bytes}
    {f g : Bytes → Except PyErr Bytes} (h : Longer k x y)
    (hf : ∀ a b, a.length = b.length + k → Longer j (f a) (g b)) :
    Longer j (x >>= f) (y >>= g) := by
  cases x with
  | error e =>
    cases y with
    | error e' =>
      cases h
      rfl
    | ok b => cases h
  | ok a =>
    cases y with
    | error e => cases h
    | ok b => exact hf a b (Except.ok.inj h)

/-- A common first step makes no difference. -/
theorem longer_after {k : Nat} (x : Except PyErr Bytes)
    {f g : Bytes → Except PyErr Bytes}
    (hf : ∀ a, Longer k (f a) (g a)) : Longer k (x >>= f) (x >>= g) := by
  cases x with
  | error e => rfl
  | ok a => exact hf a

/-- The bytes of an input's script. -/
def unlockingBytes (i : TransactionInput) : Nat :=
  (i.unlockingScript.getD []).length

/-- An input grows by its unlocking script. -/
theorem serialize_longer {i : TransactionInput} {script : Bytes}
    (hscript : i.unlockingScript = some script)
    (hlt : script.length < 0xFD) :
    Longer (unlockingBytes i) i.serialize (bare i).serialize := by
  have hsize : scriptBytes (some script) =
      .ok (compactBytes script.length ++ script) := by
    rw [scriptBytes, unsignedToVarint, if_neg (by omega)]
    rfl
  refine longer_after (txidBytes i.sourceTxid) fun txid =>
    longer_after (toBytesLe 4 i.sourceOutputIndex) fun index => ?_
  rw [hscript, hsize, unlockingBytes, hscript]
  refine longer_after (toBytesLe 4 i.sequence) fun sequence => longer_ok ?_
  simp only [List.length_append, length_compactBytes_small hlt,
    Option.getD_some, List.length_cons, List.length_nil]
  omega

theorem joinAll_longer : ∀ {l : List TransactionInput},
    (∀ i ∈ l, ∃ script, i.unlockingScript = some script ∧
      script.length < 0xFD) →
      Longer (l.map unlockingBytes).sum (joinAll TransactionInput.serialize l)
        (joinAll TransactionInput.serialize (l.map bare)) := by
  intro l
  induction l with
  | nil => intro _; rfl
  | cons i l ih =>
    intro h
    obtain ⟨⟨script, hscript, hlt⟩, hrest⟩ := List.forall_mem_cons.mp h
    refine (serialize_longer hscript hlt).bind fun a b hab =>
      (ih hrest).bind fun rest rest' hrest' => longer_ok ?_
    rw [List.length_append, List.length_append, List.map_cons,
      List.sum_cons, hab, hrest']
    omega

/-- The transaction without its unlocking scripts. -/
def bareTx (t : Transaction) : Transaction :=
  { t with inputs := t.inputs.map bare }

/-- So a transaction grows by the scripts it is signed with. -/
theorem Transaction.serialize_longer {t : Transaction}
    (h : ∀ i ∈ t.inputs, ∃ script, i.unlockingScript = some script ∧
      script.length < 0xFD) :
    Longer (t.inputs.map unlockingBytes).sum t.serialize
      (bareTx t).serialize := by
  have hcount : (bareTx t).inputs.length = t.inputs.length := List.length_map _
  rw [Transaction.serialize, Transaction.serialize, hcount]
  refine longer_after (toBytesLe 4 t.version) fun version =>
    longer_after (unsignedToVarint t.inputs.length) fun nIn => ?_
  refine (joinAll_longer h).bind fun a b hab =>
    longer_after (unsignedToVarint t.outputs.length) fun nOut => ?_
  refine longer_after (joinAll TransactionOutput.serialize t.outputs)
    fun outputs => ?_
  refine longer_after (toBytesLe 4 t.locktime) fun locktime => longer_ok ?_
  simp only [List.length_append, hab]
  omega

end Size

/-! ## Signing -/

section Signing

variable (curve : Curve Key Secret)

/-- The public key as it is pushed. -/
def pushedKey (key : PrivateKey Secret) : Bytes :=
  curve.format (curve.publicKey key.secret) key.compressed

/-- What is documented of the lengths that the curve library gives, for one
private key. -/
structure KeySized (key : PrivateKey Secret) : Prop where
  signature : ∀ digest, (curve.sign key.secret digest).length ≤ 72
  publicKey : (pushedKey curve key).length = 33 ∨
    (pushedKey curve key).length = 65

/-- An input that no script unlocks yet, to be signed with this key. -/
structure Blank (key : PrivateKey Secret) (t : DraftInput Secret) : Prop where
  unsigned : t.input.unlockingScript = none
  flag : t.input.sighash = sighashAllForkid
  template : t.template = some key

variable (key : PrivateKey Secret)

/-- The signature of input `k`. -/
def signatureOf (tx : Transaction) (k : Nat) : Bytes :=
  match txPreimage k tx.inputs tx.outputs tx.version tx.locktime with
  | .ok message => curve.sign key.secret (hash256 message)
  | .error _ => []

/-- The bytes of all signatures. -/
def signatureBytes (tx : Transaction) : Nat :=
  ((List.range tx.inputs.length).map fun k =>
    (signatureOf curve key tx k).length).sum

/-- The size a transaction will have when it is signed: besides the signature,
an input takes two push opcodes, the signature's flag and the public key. -/
def signedSize (tx : Transaction) : Except PyErr Nat :=
  tx.serialize.map fun raw => raw.length + (signatureBytes curve key tx +
    tx.inputs.length * ((pushedKey curve key).length + 3))

variable {curve key} {d d' : Draft Secret} {k : Nat}

/-- A short push is the direct one. -/
theorem encodePushdata_direct {data : Bytes} (hlo : 2 ≤ data.length)
    (hhi : data.length ≤ 75) :
    encodePushdata data = .ok (pushBytes data) := by
  rw [encodePushdata_long hlo hhi, pushBytes, if_pos hhi]

/-- A signature with its flag is a direct push. -/
theorem encodePushdata_flagged {signature : Bytes} (h : signature.length ≤ 72) :
    encodePushdata (signature ++ [0x41]) = .ok
      (pushBytes (signature ++ [0x41])) := by
  have hlen : (signature ++ [0x41]).length = signature.length + 1 :=
    List.length_append
  rw [encodePushdata_signature (by omega), pushBytes, if_pos (by omega), hlen]

/-- What signing makes of an input that no script unlocks yet. -/
theorem sign_unlocks (h : sign curve d = .ok d') {t : DraftInput Secret}
    (ht : d.inputs[k]? = some t)
    (hblank : t.input.unlockingScript = none)
    (hflag : t.input.sighash = sighashAllForkid)
    (htemplate : t.template = some key) (hkey : KeySized curve key) :
    ∃ message, txPreimage k d'.tx.inputs d'.tx.outputs
      d'.tx.version d'.tx.locktime = .ok message ∧
    d'.tx.inputs[k]?.bind TransactionInput.unlockingScript =
        some (pushBytes (curve.sign key.secret (hash256 message) ++ [0x41]) ++
          pushBytes (pushedKey curve key)) := by
  obtain ⟨hsame, heach⟩ := sign_keeps h
  obtain ⟨-, hget⟩ := signEach_ok heach
  obtain ⟨t', ht', hturn⟩ := hget k t ht
  have hlt : k < d'.inputs.length := (List.getElem?_eq_some_iff.mp ht').1
  rw [Nat.zero_add, signTurn, hblank, htemplate] at hturn
  obtain ⟨script, hscript, hturn⟩ := bind_ok.mp hturn
  cases hturn
  rw [p2pkhSign] at hscript
  obtain ⟨message, hmessage, hscript⟩ := bind_ok.mp hscript
  have hflag' : toBytesLe 1 (sighashAllForkid : Int) = .ok [0x41] := by decide
  -- both pushes are direct, so their lengths are those of signature and key
  have hpub : 2 ≤ (pushedKey curve key).length ∧
      (pushedKey curve key).length ≤ 75 := by
    rcases hkey.publicKey with hlen | hlen <;> omega
  dsimp only at hscript
  rw [hflag, hflag', ok_bind,
    encodePushdata_flagged (hkey.signature _), ok_bind,
    show curve.format (curve.publicKey key.secret) key.compressed =
      pushedKey curve key from rfl, encodePushdata_direct hpub.1 hpub.2,
      ok_bind, pure_eq_ok, Except.ok.injEq] at hscript
  refine ⟨message, ?_, ?_⟩
  · rw [← hsame.preimage, Draft.preimage, if_pos hlt] at hmessage
    exact hmessage
  · show (d'.inputs.map DraftInput.input)[k]?.bind _ = _
    rw [List.getElem?_map, ht', hscript]
    rfl

/-- Signatures do not depend on unlocking scripts. -/
theorem signatureOf_bare (tx : Transaction) (k : Nat) :
    signatureOf curve key (bareTx tx) k = signatureOf curve key tx k := by
  rw [signatureOf, signatureOf,
    show (bareTx tx).inputs = tx.inputs.map bare from rfl,
    show (bareTx tx).outputs = tx.outputs from rfl,
      show (bareTx tx).version = tx.version from rfl,
    show (bareTx tx).locktime = tx.locktime from rfl, txPreimage_bare]

/-- Without its signatures, a signed draft is the draft. -/
theorem sign_bareTx (h : sign curve d = .ok d')
    (hblank : ∀ t ∈ d.inputs, Blank key t) : bareTx d'.tx = d.tx := by
  obtain ⟨hsame, -⟩ := sign_keeps h
  have hins : (d'.inputs.map DraftInput.input).map bare =
      d.inputs.map DraftInput.input := by
    rw [List.map_map, show bare ∘ DraftInput.input =
      fun t : DraftInput Secret => bare t.input from rfl, hsame.inputs]
    refine List.map_congr_left fun t ht => ?_
    rw [bare, ← (hblank t ht).unsigned]
  rw [bareTx, Draft.tx, Draft.tx, hins, hsame.outputs, hsame.version,
    hsame.locktime]

/-- A constant added to every term of a sum. -/
theorem sum_range_add (f : Nat → Nat) (c n : Nat) :
    ((List.range n).map fun k => f k + c).sum =
      ((List.range n).map f).sum + n * c := by
  rw [List.sum_map_add, List.map_const', List.sum_replicate_nat,
    List.length_range]

/-- An input of a signed draft. -/
theorem sign_input (hkey : KeySized curve key)
    (h : sign curve d = .ok d') (hblank : ∀ t ∈ d.inputs, Blank key t)
    {k : Nat} (hk : k < d'.tx.inputs.length) :
    ∃ script, d'.tx.inputs[k].unlockingScript = some script ∧ script.length <
      0xFD ∧ script.length = (signatureOf curve key d.tx k).length +
      ((pushedKey curve key).length + 3) := by
  have hlt : k < d.inputs.length := by
    have hlen :=
      congrArg (fun tx : Transaction => tx.inputs.length) (sign_bareTx h hblank)
    simp only [bareTx, Draft.tx, List.length_map] at hlen hk
    omega
  have ht := hblank _ (List.getElem_mem hlt)
  obtain ⟨message, hmessage, hscript⟩ :=
    sign_unlocks h (List.getElem?_eq_getElem hlt) ht.unsigned ht.flag
      ht.template hkey
  have hsig : signatureOf curve key d.tx k =
      curve.sign key.secret (hash256 message) := by
    rw [← sign_bareTx h hblank, signatureOf_bare, signatureOf, hmessage]
  have hpub : (pushedKey curve key).length ≤ 75 := by
    rcases hkey.publicKey with hlen | hlen <;> omega
  have hbytes := hkey.signature (hash256 message)
  have hflagged : (curve.sign key.secret (hash256 message) ++ [0x41]).length =
      (curve.sign key.secret (hash256 message)).length + 1 := List.length_append
  have hlen : (pushBytes (curve.sign key.secret (hash256 message) ++ [0x41]) ++
      pushBytes (pushedKey curve key)).length = (signatureOf curve key d.tx
      k).length + ((pushedKey curve key).length + 3) := by
    rw [List.length_append, pushBytes, if_pos (by omega), pushBytes,
      if_pos hpub, List.length_cons, List.length_cons, hflagged, hsig]
    omega
  rw [List.getElem?_eq_getElem hk, Option.bind_some] at hscript
  exact ⟨_, hscript, by rw [hlen, hsig]; omega, hlen⟩

/-- What signing adds. -/
theorem sign_unlockingBytes (hkey : KeySized curve key)
    (h : sign curve d = .ok d')
    (hblank : ∀ t ∈ d.inputs, Blank key t) :
    (d'.tx.inputs.map unlockingBytes).sum =
      signatureBytes curve key d.tx + d.tx.inputs.length *
        ((pushedKey curve key).length + 3) := by
  have hlen : d'.tx.inputs.length = d.tx.inputs.length := by
    rw [← sign_bareTx h hblank]
    exact (List.length_map _).symm
  have hmap : d'.tx.inputs.map unlockingBytes =
      (List.range d.tx.inputs.length).map fun k =>
      (signatureOf curve key d.tx k).length +
          ((pushedKey curve key).length + 3) := by
    refine List.ext_getElem (by rw [List.length_map, List.length_map,
      List.length_range, hlen]) fun k hk hk' => ?_
    rw [List.length_map] at hk
    obtain ⟨script, hscript, -, hbytes⟩ := sign_input hkey h hblank hk
    rw [List.getElem_map, List.getElem_map, List.getElem_range, unlockingBytes,
      hscript, Option.getD_some, hbytes]
  rw [hmap, sum_range_add, signatureBytes]

/-- **The size of a signed transaction.** -/
theorem sign_size (hkey : KeySized curve key)
    (h : sign curve d = .ok d') (hblank : ∀ t ∈ d.inputs, Blank key t) :
    d'.tx.serialize.map List.length = signedSize curve key d.tx := by
  have hscripts : ∀ i ∈ d'.tx.inputs, ∃ script, i.unlockingScript =
      some script ∧ script.length < 0xFD := by
    intro i hi
    obtain ⟨k, hk, rfl⟩ := List.getElem_of_mem hi
    obtain ⟨script, hscript, hlt, -⟩ := sign_input hkey h hblank hk
    exact ⟨script, hscript, hlt⟩
  have hlonger := Transaction.serialize_longer hscripts
  rw [Longer, sign_bareTx h hblank,
    sign_unlockingBytes hkey h hblank] at hlonger
  exact hlonger

/-- A draft whose inputs and outputs fit is signed. -/
theorem sign_ready (hkey : KeySized curve key)
    (hblank : ∀ t ∈ d.inputs, Blank key t)
    (hins : ∀ t ∈ d.inputs, t.input.Signable)
    (houts : ∀ o ∈ d.outputs, o.Countable)
    (hversion : 0 ≤ d.version ∧ d.version < 256 ^ 4)
    (hlocktime : 0 ≤ d.locktime ∧ d.locktime < 256 ^ 4) :
    ∃ d', sign curve d = .ok d' := by
  have hvalues : d.outputs.any (fun o => o.satoshis.isNone) = false := by
    rw [List.any_eq_false]
    intro o ho
    obtain ⟨n, hn, -⟩ := (houts o ho).value
    rw [hn]
    exact Bool.false_ne_true
  have hpub : 2 ≤ (pushedKey curve key).length ∧
      (pushedKey curve key).length ≤ 75 := by
    rcases hkey.publicKey with hlen | hlen <;> omega
  -- each turn signs its own input, whatever the others hold
  have hturn : ∀ (k : Nat) t, d.inputs[k]? = some t →
      ∃ t', signTurn curve d (0 + k) t = .ok t' := by
    intro k t ht
    have hmem : t ∈ d.inputs := List.mem_iff_getElem?.mpr ⟨k, ht⟩
    have hb := hblank t hmem
    have hinput : (d.inputs.map DraftInput.input)[k]? = some t.input := by
      rw [List.getElem?_map, ht]
      rfl
    obtain ⟨message, hmessage⟩ :=
        txPreimage_returns hinput (hins t hmem) (by rw [hb.flag]; decide)
      (fun j hj => by
        obtain ⟨u, hu, rfl⟩ := List.mem_map.mp hj
        exact (hins u hu).toFits) houts hversion hlocktime
    have hpre : d.preimage k = .ok message := by
      rw [Draft.preimage, if_pos (List.getElem?_eq_some_iff.mp ht).1]
      exact hmessage
    have hflag : toBytesLe 1 (sighashAllForkid : Int) = .ok [0x41] := by decide
    rw [Nat.zero_add, signTurn, hb.unsigned, hb.template]
    dsimp only
    rw [p2pkhSign, hpre, ok_bind]
    dsimp only
    rw [hb.flag, hflag, ok_bind,
      encodePushdata_flagged (hkey.signature _), ok_bind,
      show curve.format (curve.publicKey key.secret) key.compressed =
        pushedKey curve key from rfl, encodePushdata_direct hpub.1 hpub.2]
    exact ⟨_, rfl⟩
  obtain ⟨inputs, hinputs⟩ := signEach_returns hturn
  exact ⟨_, by rw [sign_eq hvalues, hinputs]; rfl⟩

/-- What is signed is the curve's signature. -/
theorem signatureOf_eq (hkey : KeySized curve key) (h : sign curve d = .ok d')
    (hblank : ∀ t ∈ d.inputs, Blank key t) (hk : k < d.inputs.length) :
    ∃ digest, signatureOf curve key d.tx k = curve.sign key.secret digest := by
  have ht := hblank _ (List.getElem_mem hk)
  obtain ⟨message, hmessage, -⟩ :=
    sign_unlocks h (List.getElem?_eq_getElem hk) ht.unsigned ht.flag
      ht.template hkey
  refine ⟨hash256 message, ?_⟩
  rw [← sign_bareTx h hblank, signatureOf_bare, signatureOf, hmessage]

/-- Signatures of one length. -/
theorem signatureBytes_of_length {n : Nat} (hkey : KeySized curve key)
    (hn : ∀ digest, (curve.sign key.secret digest).length = n)
    (h : sign curve d = .ok d') (hblank : ∀ t ∈ d.inputs, Blank key t) :
    signatureBytes curve key d.tx = n * d.inputs.length := by
  have hlen : d.tx.inputs.length = d.inputs.length := List.length_map _
  rw [signatureBytes, hlen, sum_sizes_eq fun k hk => ?_, List.length_range]
  obtain ⟨digest, hsig⟩ := signatureOf_eq hkey h hblank (List.mem_range.mp hk)
  rw [hsig, hn]

/-- What is signed can be written. -/
theorem preimage_outputs {k : Nat} {i : TransactionInput}
    {ins : List TransactionInput} {outs : List TransactionOutput}
    {version locktime : Int} {message : Bytes}
    (h : txPreimage k ins outs version locktime = .ok message)
    (hi : ins[k]? = some i) (hflag : i.sighash = sighashAllForkid) :
    ∃ b, joinAll TransactionOutput.serialize outs = .ok b := by
  rw [txPreimage, hi] at h
  dsimp only at h
  rw [hflag] at h
  obtain ⟨prevouts, -, h⟩ := bind_ok.mp h
  obtain ⟨sequences, -, h⟩ := bind_ok.mp h
  obtain ⟨hashes, hhashes, -⟩ := bind_ok.mp h
  rw [if_pos (show signsAllOutputs sighashAllForkid = true from rfl)] at hhashes
  obtain ⟨all, hall, -⟩ := bind_ok.mp hhashes
  obtain ⟨b, hb, -⟩ := bind_ok.mp hall
  exact ⟨b, hb⟩

/-- Outputs with the same scripts take the same room. -/
theorem serialize_outputs {t : Transaction} {outs : List TransactionOutput}
    {raw b : Bytes} (h : t.serialize = .ok raw)
    (hb : joinAll TransactionOutput.serialize outs = .ok b)
    (hscripts : outs.map TransactionOutput.lockingScript =
      t.outputs.map TransactionOutput.lockingScript) :
    ∃ raw', Transaction.serialize { t with outputs := outs } = .ok raw' ∧
    raw'.length = raw.length := by
  obtain ⟨version, hversion, h⟩ := bind_ok.mp h
  obtain ⟨nIn, hnIn, h⟩ := bind_ok.mp h
  obtain ⟨inputs, hinputs, h⟩ := bind_ok.mp h
  obtain ⟨nOut, hnOut, h⟩ := bind_ok.mp h
  obtain ⟨outputs, houtputs, h⟩ := bind_ok.mp h
  obtain ⟨locktime, hlocktime, h⟩ := bind_ok.mp h
  cases h
  have hcount : outs.length = t.outputs.length := by
    have hlen := congrArg List.length hscripts
    rwa [List.length_map, List.length_map] at hlen
  have hroom : ∀ {l : List TransactionOutput} {x : Bytes},
      joinAll TransactionOutput.serialize l = .ok x →
      x.length =
        ((l.map TransactionOutput.lockingScript).map outputSize).sum := by
    intro l x hx
    rw [List.map_map]
    exact length_joinAll (fun o _ y hy =>
      TransactionOutput.length_serialize hy) hx
  refine ⟨version ++ nIn ++ inputs ++ nOut ++ b ++ locktime, ?_, ?_⟩
  · rw [Transaction.serialize]
    dsimp only
    rw [hversion, ok_bind, hnIn, ok_bind, hinputs, ok_bind, hcount, hnOut,
      ok_bind, hb, ok_bind, hlocktime, ok_bind, pure_eq_ok]
  · simp only [List.length_append, hroom hb, hroom houtputs, hscripts]

end Signing

end Pyrxd.Glyph
