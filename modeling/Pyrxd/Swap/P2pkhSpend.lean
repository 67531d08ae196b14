import Pyrxd.Swap.Signing
import Pyrxd.Swap.PartialSafety
import Pyrxd.Tx.Size

/-!
# Transactions that spend and pay P2PKH

What `Transaction.sign` needs for that: P2PKH outputs have preimages, a DER
signature and a compressed key are pushed with one byte each, and so every input
that knows its output and its key is signed (`sign_returns`).
-/

namespace Pyrxd.Swap

open Pyrxd.Lib Pyrxd.Tx

/-! ## P2PKH scripts -/

section Lock

variable {pkh : Bytes}

theorem length_lock (h : pkh.length = 20) :
    (p2pkhHead ++ pkh ++ p2pkhTail).length = 25 := by
  rw [List.length_append, List.length_append, h]
  rfl

/-- A P2PKH script pushes no ref: the walk goes over the hash in one step. -/
theorem getPushRefs_lock (h : pkh.length = 20) :
    getPushRefs (p2pkhHead ++ pkh ++ p2pkhTail) = .ok [] := by
  have hdrop : (0x14 :: (pkh ++ p2pkhTail)).drop 21 = p2pkhTail := by
    rw [List.drop_succ_cons]
    exact List.drop_left' h
  have hwalk : pushRefsWalk 23 2 (0x14 :: (pkh ++ p2pkhTail)) = .ok [] := by
    show (do
      let refs ← pushRefsWalk 22 (2 + 21) ((0x14 :: (pkh ++ p2pkhTail)).drop 21)
      pure (if isPushRef 0x14 then (pkh ++ p2pkhTail).take 36 :: refs else refs)) = Except.ok []
    rw [hdrop]
    rfl
  have hall : pushRefsWalk 25 0 (p2pkhHead ++ pkh ++ p2pkhTail) = .ok [] := by
    show (do
      let refs ← (do
        let refs ← pushRefsWalk 23 2 (0x14 :: (pkh ++ p2pkhTail))
        pure (if isPushRef 0xA9 then (0x14 :: (pkh ++ p2pkhTail)).take 36 :: refs else refs))
      pure (if isPushRef 0x76 then (0xA9 :: 0x14 :: (pkh ++ p2pkhTail)).take 36 :: refs else refs)) = Except.ok []
    rw [hwalk]
    rfl
  rw [getPushRefs, length_lock h, hall]
  rfl

theorem countable_lock (h : pkh.length = 20) {value : Int}
    (hvalue : 0 ≤ value ∧ value < 256 ^ 8) :
    (⟨p2pkhHead ++ pkh ++ p2pkhTail, some value⟩ :
      TransactionOutput).Countable where
  value := ⟨value, rfl, hvalue.1, hvalue.2⟩
  script := by
    show (p2pkhHead ++ pkh ++ p2pkhTail).length < 256 ^ 8
    rw [length_lock h]
    decide
  refs := ⟨[], getPushRefs_lock h, by decide⟩

theorem outputSize_lock (h : pkh.length = 20) :
    outputSize (p2pkhHead ++ pkh ++ p2pkhTail) = 34 := by
  rw [outputSize, length_lock h, length_compactBytes_small (by decide)]

end Lock

/-! ## Unlocking scripts -/

/-- What unlocks a P2PKH output: the signature with its flag, and the compressed
key. -/
def scriptSig (signature publicKey : Bytes) : Bytes :=
  (UInt8.ofNat (signature.length + 1) :: (signature ++ [0x41])) ++
    0x21 :: publicKey

section Unlock

variable {signature publicKey : Bytes}

/-- A direct push of two bytes or more. -/
theorem encodePushdata_long {data : Bytes} (hlo : 2 ≤ data.length)
    (hhi : data.length ≤ 75) :
    encodePushdata data = .ok (UInt8.ofNat data.length :: data) := by
  match data, hlo, hhi with
  | x :: y :: rest, _, hhi =>
    have hlen : (x :: y :: rest).length ≤ 0x4B := hhi
    rw [encodePushdata, getPushdataCode, if_pos hlen]
    · rfl
    · intro hc
      cases hc
    · intro b hc
      cases hc

/-- A flagged signature is pushed directly. -/
theorem encodePushdata_signature (h : signature.length ≤ 74) :
    encodePushdata (signature ++ [0x41]) = .ok
      (UInt8.ofNat (signature.length + 1) :: (signature ++ [0x41])) := by
  cases signature with
  | nil => rfl
  | cons b rest =>
    rw [encodePushdata_long]
    · rw [List.length_append]
      rfl
    · rw [List.length_append, List.length_cons, List.length_singleton]
      omega
    · rw [List.length_append, List.length_singleton]
      omega

theorem encodePushdata_publicKey (h : publicKey.length = 33) :
    encodePushdata publicKey = .ok (0x21 :: publicKey) := by
  rw [encodePushdata_long (by omega) (by omega), h]
  rfl

/-- The unlocking script's length. -/
theorem length_scriptSig (h : publicKey.length = 33) :
    (scriptSig signature publicKey).length = signature.length + 36 := by
  rw [scriptSig, List.length_append, List.length_cons, List.length_append,
    List.length_singleton, List.length_cons, h]

theorem parsePush_cons {data rest : Bytes} (hlo : 1 ≤ data.length)
    (hhi : data.length ≤ 75) :
    parsePush (UInt8.ofNat data.length :: (data ++ rest)) = .ok
      (data, rest) := by
  have hn : (UInt8.ofNat data.length).toNat = data.length := by
    rw [UInt8.toNat_ofNat']
    omega
  rw [parsePush, hn, if_neg (not_not.mpr ⟨hlo, hhi⟩),
    if_neg (by rw [List.length_append]; omega), List.take_left' rfl,
    List.drop_left' rfl]

/-- The two pushes are read back. -/
theorem parseP2pkhScriptsig_scriptSig (hsig : signature.length ≤ 74)
    (hpub : publicKey.length = 33) : parseP2pkhScriptsig
    (scriptSig signature publicKey) = .ok (signature ++ [0x41], publicKey) := by
  have hlen : (signature ++ [0x41]).length = signature.length + 1 :=
    List.length_append
  have h1 := @parsePush_cons (signature ++ [0x41]) (0x21 :: publicKey)
    (by omega) (by omega)
  have h2 := @parsePush_cons publicKey [] (by omega) (by omega)
  rw [hlen] at h1
  rw [hpub, List.append_nil] at h2
  rw [parseP2pkhScriptsig, scriptSig, List.cons_append, h1, ok_bind]
  dsimp only
  rw [show (0x21 : UInt8) = UInt8.ofNat 33 from rfl, h2]
  rfl

/-- An input with a signature of usual length takes 148 bytes, and no more with
a shorter one. -/
theorem inputSize_scriptSig (hpub : publicKey.length = 33)
    (hsig : signature.length ≤ 72) :
    inputSize (scriptSig signature publicKey) = signature.length + 77 := by
  rw [inputSize, length_scriptSig hpub, length_compactBytes_small (by omega)]
  omega

end Unlock

/-! ## Signing -/

section Sign

variable {Key Secret : Type} {curve : Curve Key Secret}

/-- What is documented of the curve library: how long a DER signature and a
compressed key are. -/
structure Curve.Sized (curve : Curve Key Secret) : Prop where
  signature : ∀ secret digest, (curve.sign secret digest).length ≤ 72
  publicKey : ∀ key, (curve.format key true).length = 33

/-- Signing returns when each turn does. -/
theorem signEach_returns {d : Draft Secret}
    {rest : List (DraftInput Secret)} : ∀ {i : Nat},
    (∀ (k : Nat) t, rest[k]? = some t →
      ∃ t', signTurn curve d (i + k) t = .ok t') →
      ∃ l, signEach curve d i rest = .ok l := by
  induction rest with
  | nil =>
    intro i _
    exact ⟨[], rfl⟩
  | cons t rest ih =>
    intro i h
    obtain ⟨t', ht⟩ := h 0 t rfl
    obtain ⟨l, hl⟩ := @ih (i + 1) fun k u hu => by
      have hturn := h (k + 1) u hu
      rwa [show i + (k + 1) = i + 1 + k by omega] at hturn
    exact ⟨t' :: l, by
      rw [signEach, show signTurn curve d i t = .ok t' from ht, ok_bind, hl]
      rfl⟩

/-- An input whose output and key are known, and which no script unlocks yet. -/
structure Unsigned (t : DraftInput Secret) : Prop extends t.input.Signable where
  blank : t.input.unlockingScript = none
  flag : t.input.sighash = sighashAllForkid
  key : ∃ key, t.template = some key ∧ key.compressed = true

/-- A draft of P2PKH inputs whose outputs all fit. -/
structure Draft.Ready (d : Draft Secret) : Prop where
  version : 0 ≤ d.version ∧ d.version < 256 ^ 4
  locktime : 0 ≤ d.locktime ∧ d.locktime < 256 ^ 4
  inputs : ∀ t ∈ d.inputs, Unsigned t
  outputs : ∀ o ∈ d.outputs, o.Countable

/-- The unlocking script that a key makes for a digest. -/
def scriptSigOf (curve : Curve Key Secret) (key : PrivateKey Secret)
    (digest : Bytes) : Bytes :=
  scriptSig (curve.sign key.secret digest)
    (curve.format (curve.publicKey key.secret) true)

/-- What signing makes of an input. -/
def SignedInput (curve : Curve Key Secret) (t t' : DraftInput Secret) : Prop :=
  ∃ key digest, t.template = some key ∧
    t' = ⟨{ t.input with unlockingScript := some (scriptSigOf curve key digest) }, some key⟩

/-- One turn signs its input. -/
theorem signTurn_returns (hsized : curve.Sized) {d : Draft Secret}
    (hd : d.Ready) {k : Nat} {t : DraftInput Secret}
    (ht : d.inputs[k]? = some t) : ∃ t', signTurn curve d k t = .ok t' ∧
    SignedInput curve t t' := by
  have hun := hd.inputs t (List.mem_iff_getElem?.mpr ⟨k, ht⟩)
  obtain ⟨key, hkey, hcompressed⟩ := hun.key
  have hinput : (d.inputs.map DraftInput.input)[k]? = some t.input := by
    rw [List.getElem?_map, ht]
    rfl
  obtain ⟨message, hmessage⟩ :=
      txPreimage_returns hinput hun.toSignable (by rw [hun.flag]; decide)
    (fun j hj => by
      obtain ⟨u, hu, rfl⟩ := List.mem_map.mp hj
      exact (hd.inputs u hu).toFits) hd.outputs hd.version hd.locktime
  have hpre : d.preimage k = .ok message := by
    rw [Draft.preimage, if_pos (List.getElem?_eq_some_iff.mp ht).1]
    exact hmessage
  have hsig : (curve.sign key.secret (hash256 message)).length ≤ 74 :=
    Nat.le_succ_of_le
    (Nat.le_succ_of_le (hsized.signature key.secret (hash256 message)))
  have hflag : toBytesLe 1 (sighashAllForkid : Int) = .ok [0x41] := by decide
  refine ⟨⟨{ t.input with unlockingScript := some (scriptSigOf curve key
    (hash256 message)) }, some key⟩, ?_, key, hash256 message, hkey, rfl⟩
  rw [signTurn, hun.blank, hkey]
  dsimp only
  rw [p2pkhSign, hpre, ok_bind]
  dsimp only
  rw [hun.flag, hflag, ok_bind, encodePushdata_signature hsig,
    ok_bind, hcompressed,
    encodePushdata_publicKey (hsized.publicKey _)]
  rfl

/-- **A draft that is ready is signed**, input by input. -/
theorem sign_returns (hsized : curve.Sized) {d : Draft Secret} (hd : d.Ready) :
    ∃ inputs, sign curve d = .ok { d with inputs := inputs } ∧
    List.Forall₂ (SignedInput curve) d.inputs inputs := by
  have hvalues : d.outputs.any (fun o => o.satoshis.isNone) = false := by
    rw [List.any_eq_false]
    intro o ho
    obtain ⟨n, hn, -⟩ := (hd.outputs o ho).value
    rw [hn]
    exact Bool.false_ne_true
  have hturn : ∀ (k : Nat) t, d.inputs[k]? = some t →
      ∃ t', signTurn curve d (0 + k) t = .ok t' ∧
      SignedInput curve t t' := by
    intro k t ht
    rw [Nat.zero_add]
    exact signTurn_returns hsized hd ht
  obtain ⟨inputs, hinputs⟩ := signEach_returns fun k t ht =>
    (hturn k t ht).imp fun t' h => h.1
  refine ⟨inputs, by rw [sign_eq hvalues, hinputs]; rfl, ?_⟩
  obtain ⟨hlen, hget⟩ := signEach_ok hinputs
  refine List.forall₂_iff_get.mpr ⟨hlen.symm, fun k hk hk' => ?_⟩
  obtain ⟨t', ht', hturned⟩ := hget k _ (List.getElem?_eq_getElem hk)
  obtain ⟨u, hu, hsigned⟩ := hturn k _ (List.getElem?_eq_getElem hk)
  rw [hturned, Except.ok.injEq] at hu
  rw [List.getElem?_eq_getElem hk', Option.some.injEq] at ht'
  rw [List.get_eq_getElem, List.get_eq_getElem, ht', hu]
  exact hsigned

end Sign

end Pyrxd.Swap
