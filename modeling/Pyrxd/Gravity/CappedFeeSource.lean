import Pyrxd.Gravity.RadiantLeg

/-!
# The capped fee pool

`CappedFeeWalletSource` of `capped_fee_source.py`: a fixed pool of fee inputs,
dispensed in order until it is empty or the next one would exceed the cap. What
was dispensed is a prefix of the pool whose values the counter adds up (`Kept`),
and `remaining_photons` walks the same prefix that the calls to come will
dispense (`dispenses_affordable`).

Duplicates are looked for among the outpoints as text. Two texts can be the same
32 bytes, so that an outpoint is dispensed once only if the dispensable inputs
differ as bytes (`accounts_iff`).
-/

namespace Pyrxd.Gravity

open Pyrxd.Lib

/-! ## Construction -/

/-- `_p2pkh_pkh`. -/
def p2pkhPkh (spk : Bytes) : Option Bytes :=
  if spk.length = 25 ∧ spk.take 3 = [0x76, 0xA9, 0x14] ∧
    spk.drop 23 = [0x88, 0xAC] then some ((spk.take 23).drop 3)
  else none

structure CappedFeeWalletSource where
  pool : List FeeInput
  cursor : Nat
  cap : Int
  dispensedPhotons : Int
  fundedPhotons : Int

/-- `{x.txid}:{x.vout}`. -/
def FeeInput.outpoint (x : FeeInput) : String :=
  x.txid ++ ":" ++ toString x.vout

/-- One turn of the last loop: a bare P2PKH script that the input's own key
controls. -/
def checkControlled (ownerPkh : String → Except PyErr Bytes) (x : FeeInput) :
    Except PyErr Unit :=
  match p2pkhPkh x.scriptpubkey with
  | none =>
    invalid ("pool input " ++ x.outpoint ++
      " scriptpubkey is not a bare P2PKH — a capped fee pool " ++
      "must hold only plain-RXD P2PKH UTXOs (a token UTXO would be destroyed if spent as a fee)")
  | some pkh =>
    match ownerPkh x.wif with
    | .error (.base msg) => .error (.base msg)
    | .error _ => invalid ("pool input " ++ x.outpoint ++ " has an invalid WIF")
    | .ok owner => refuseIf (pkh ≠ owner) ("pool input " ++ x.outpoint ++
        " WIF does not control its scriptpubkey (pkh mismatch) — " ++
        "the pool key cannot spend this UTXO and the fee leg would be stranded")

/-- The optional ceiling on a single input. -/
def checkCeiling (pool : List FeeInput) : Option Int → Except PyErr Unit
  | none => .ok ()
  | some maxPerInput => do
    refuseIf (maxPerInput ≤
      0) "max_per_input_photons must be a positive int or None"
    let oversized := pool.filter fun x => decide (x.value > maxPerInput)
    refuseIf (oversized ≠ []) (toString oversized.length ++
      " pool input(s) exceed max_per_input_photons=" ++ toString maxPerInput ++
      "; the small-balance invariant must hold structurally — re-carve the pool into smaller UTXOs")

/-- `CappedFeeWalletSource(pool, ...)`. `ownerPkh` is
`PrivateKey(wif).public_key().hash160()`. -/
def CappedFeeWalletSource.new (ownerPkh : String → Except PyErr Bytes)
    (pool : List FeeInput)
    (totalCapPhotons : Int) (maxPerInputPhotons : Option Int) :
    Except PyErr CappedFeeWalletSource := do
  refuseIf (pool.length =
    0) "CappedFeeWalletSource pool must be a non-empty list of FeeInput"
  refuseIf (¬ (pool.map fun x => (x.txid, x.vout)).Nodup)
    ("CappedFeeWalletSource pool contains a duplicate outpoint — the same UTXO " ++
      "dispensed twice would double-spend the fee input")
  refuseIf (totalCapPhotons ≤ 0) "total_cap_photons must be a positive int"
  checkCeiling pool maxPerInputPhotons
  pool.forM (checkControlled ownerPkh)
  return ⟨pool, 0, totalCapPhotons, 0, (pool.map (·.value)).sum⟩

namespace CappedFeeWalletSource

/-! ## Calls -/

/-- `next_fee_input`: what it returns or raises, and what is left. -/
def nextFeeInput (s : CappedFeeWalletSource) :
    Except PyErr FeeInput × CappedFeeWalletSource :=
  match s.pool[s.cursor]? with
  | none =>
    (.error (.other ("capped fee pool exhausted: all " ++
      toString s.pool.length ++
      " pre-funded input(s) dispensed (" ++ toString s.dispensedPhotons ++
      " photons). Re-fund the capped pool to continue.")), s)
  | some nxt =>
    if s.dispensedPhotons + nxt.value > s.cap then
      (.error (.other ("capped fee cap reached: dispensing " ++
        toString nxt.value ++
        " photons would exceed total_cap_photons=" ++ toString s.cap ++
          " (already dispensed " ++
        toString s.dispensedPhotons ++ "). Fail-closed.")), s)
    else
      (.ok nxt, { s with cursor := s.cursor + 1, dispensedPhotons := s.dispensedPhotons + nxt.value })

/-- The loop of `remaining_photons`. -/
def spendable (cap running acc : Int) : List FeeInput → Int
  | [] => acc
  | x :: rest =>
    if running + x.value > cap then acc
      else spendable cap (running + x.value) (acc + x.value) rest

/-- `remaining_photons`. -/
def remainingPhotons (s : CappedFeeWalletSource) : Int :=
  spendable s.cap s.dispensedPhotons 0 (s.pool.drop s.cursor)

inductive Call where
  | nextFeeInput
  | remainingPhotons

/-- A call leaves this behind. -/
def call (s : CappedFeeWalletSource) : Call → CappedFeeWalletSource
  | .nextFeeInput => s.nextFeeInput.2
  | .remainingPhotons => s

/-- A call dispenses this. -/
def gives (s : CappedFeeWalletSource) : Call → List FeeInput
  | .nextFeeInput => s.nextFeeInput.1.toOption.toList
  | .remainingPhotons => []

/-- After some calls. -/
def after (s : CappedFeeWalletSource) (calls : List Call) :
    CappedFeeWalletSource := calls.foldl call s

/-- What some calls dispensed. -/
def dispensed : CappedFeeWalletSource → List Call → List FeeInput
  | _, [] => []
  | s, c :: calls => s.gives c ++ (s.call c).dispensed calls

/-- What `next_fee_input` dispenses, call after call, until it raises. -/
inductive Dispenses : CappedFeeWalletSource → List FeeInput → Prop
  | refuses {s e} (h : s.nextFeeInput.1 = .error e) : Dispenses s []
  | gives {s x s' xs} (h : s.nextFeeInput = (.ok x, s'))
      (rest : Dispenses s' xs) : Dispenses s (x :: xs)

end CappedFeeWalletSource

/-- The sum of values. -/
def photons (xs : List FeeInput) : Int := (xs.map (·.value)).sum

/-- An outpoint as it stands in a transaction: the txid's bytes, last first, and
the index. -/
def FeeInput.wireOutpoint (x : FeeInput) : Option Bytes × Int :=
  ((fromHex x.txid).map List.reverse, x.vout)

/-- What should hold of a source after any calls. -/
structure CappedFeeWalletSource.Accounts (s : CappedFeeWalletSource)
    (calls : List CappedFeeWalletSource.Call) : Prop where
  cap : photons (s.dispensed calls) ≤ s.cap
  funded : photons (s.dispensed calls) ≤ photons s.pool
  once : ((s.dispensed calls).map FeeInput.wireOutpoint).Nodup
  refusal : ∀ e, (s.after calls).nextFeeInput.1 = .error e →
    (s.after calls).nextFeeInput.2 = s.after calls
  remaining : ∃ xs, (s.after calls).Dispenses xs ∧
    (s.after calls).remainingPhotons = photons xs

/-- The longest beginning of a pool that fits under the cap. -/
def affordable (cap running : Int) : List FeeInput → List FeeInput
  | [] => []
  | x :: rest =>
    if running + x.value > cap then []
      else x :: affordable cap (running + x.value) rest

/-! ## One call -/

namespace CappedFeeWalletSource

variable {s : CappedFeeWalletSource} {calls : List Call}

/-- The three things `next_fee_input` can do. -/
theorem nextFeeInput_cases (s : CappedFeeWalletSource) :
    (s.pool.drop s.cursor = [] ∧ ∃ e, s.nextFeeInput = (.error e, s)) ∨
    (∃ x rest, s.pool.drop s.cursor = x :: rest ∧ s.dispensedPhotons + x.value > s.cap ∧
      ∃ e, s.nextFeeInput = (.error e, s)) ∨
    (∃ x rest, s.pool.drop s.cursor = x :: rest ∧ s.dispensedPhotons + x.value ≤ s.cap ∧
      s.nextFeeInput = (.ok x, { s with cursor := s.cursor + 1, dispensedPhotons := s.dispensedPhotons + x.value })) := by
  rw [nextFeeInput]
  cases hnext : s.pool[s.cursor]? with
  | none =>
    exact .inl ⟨List.drop_eq_nil_of_le (List.getElem?_eq_none_iff.mp hnext), _,
      rfl⟩
  | some x =>
    obtain ⟨hlt, hx⟩ := List.getElem?_eq_some_iff.mp hnext
    have hdrop : s.pool.drop s.cursor = x :: s.pool.drop (s.cursor + 1) := by
      rw [List.drop_eq_getElem_cons hlt, hx]
    right
    by_cases hcap : s.dispensedPhotons + x.value > s.cap
    · exact .inl ⟨x, _, hdrop, hcap, _, if_pos hcap⟩
    · exact .inr ⟨x, _, hdrop, Int.not_lt.mp hcap, if_neg hcap⟩

/-- The inputs that a source can still dispense. -/
def ahead (s : CappedFeeWalletSource) : List FeeInput :=
  affordable s.cap s.dispensedPhotons (s.pool.drop s.cursor)

/-- Once the source refuses, nothing is ahead and nothing changes. -/
theorem ahead_refuses {e : PyErr} (h : s.nextFeeInput.1 = .error e) :
    s.ahead = [] ∧ s.nextFeeInput.2 = s := by
  rcases s.nextFeeInput_cases with ⟨hdrop, e', hcall⟩ | ⟨x, rest, hdrop, hcap,
    e', hcall⟩ | ⟨x, rest, hdrop, hcap, hcall⟩
  · exact ⟨by rw [ahead, hdrop, affordable], by rw [hcall]⟩
  · exact ⟨by rw [ahead, hdrop, affordable, if_pos hcap], by rw [hcall]⟩
  · rw [hcall] at h
    cases h

/-- An input handed out was the next one ahead. -/
theorem ahead_gives {x : FeeInput} {s' : CappedFeeWalletSource}
    (h : s.nextFeeInput = (.ok x, s')) :
    s.ahead = x :: s'.ahead ∧ s'.pool = s.pool ∧ s'.cap = s.cap := by
  rcases s.nextFeeInput_cases with ⟨-, e', hcall⟩ | ⟨-, -, -, -, e', hcall⟩ | ⟨y, rest, hdrop, hcap, hcall⟩
  · rw [hcall] at h
    cases h
  · rw [hcall] at h
    cases h
  · rw [hcall] at h
    cases h
    refine ⟨?_, rfl, rfl⟩
    have hrest : s.pool.drop (s.cursor + 1) = rest := by
      rw [← List.drop_drop, hdrop]
      rfl
    rw [ahead, hdrop, affordable, if_neg (Int.not_lt.mpr hcap), ahead, hrest]

/-- **A call takes what it dispenses off what lies ahead**, and changes nothing
else that counts. -/
theorem gives_append_ahead (s : CappedFeeWalletSource) (c : Call) :
    s.gives c ++ (s.call c).ahead = s.ahead ∧ (s.call c).pool = s.pool ∧
    (s.call c).cap = s.cap := by
  cases c with
  | remainingPhotons => exact ⟨rfl, rfl, rfl⟩
  | nextFeeInput =>
    rw [gives, call]
    rcases hcall : s.nextFeeInput with ⟨r, s'⟩
    cases r with
    | error e =>
      obtain ⟨-, hs⟩ := ahead_refuses (e := e) (by rw [hcall])
      rw [hcall] at hs
      rw [show s' = s from hs]
      exact ⟨rfl, rfl, rfl⟩
    | ok x =>
      obtain ⟨hahead, hpool, hcap⟩ := ahead_gives hcall
      exact ⟨hahead.symm, hpool, hcap⟩

/-! ## Runs -/

/-- What was dispensed and what lies ahead is what lay ahead at first. -/
theorem dispensed_append_ahead : ∀ (calls : List Call)
    (s : CappedFeeWalletSource),
    s.dispensed calls ++ (s.after calls).ahead = s.ahead := by
  intro calls
  induction calls with
  | nil =>
    intro s
    rfl
  | cons c calls ih =>
    intro s
    rw [dispensed, List.append_assoc]
    show s.gives c ++ ((s.call c).dispensed calls ++
      ((s.call c).after calls).ahead) = s.ahead
    rw [ih, (s.gives_append_ahead c).1]

/-- As many calls as there are inputs empty the source. -/
theorem dispensed_replicate : ∀ (k : Nat)
    (s : CappedFeeWalletSource), s.ahead.length ≤ k →
    s.dispensed (List.replicate k .nextFeeInput) = s.ahead := by
  intro k
  induction k with
  | zero =>
    intro s hk
    rw [List.eq_nil_of_length_eq_zero (Nat.le_zero.mp hk)]
    rfl
  | succ k ih =>
    intro s hk
    rw [List.replicate_succ, dispensed]
    obtain ⟨happ, -, -⟩ := s.gives_append_ahead .nextFeeInput
    rcases hcall : s.nextFeeInput with ⟨r, s'⟩
    cases r with
    | error e =>
      obtain ⟨hnil, hs⟩ := ahead_refuses (e := e) (by rw [hcall])
      have hgives : s.gives .nextFeeInput = [] := by
        rw [gives, hcall]
        rfl
      rw [hgives, call, hs, List.nil_append,
        ih s (by rw [hnil]; exact Nat.zero_le _)]
    | ok x =>
      obtain ⟨hahead, -, -⟩ := ahead_gives hcall
      have hlen : s'.ahead.length ≤ k := by
        rw [hahead, List.length_cons] at hk
        omega
      have hnext : s.call .nextFeeInput = s' := by rw [call, hcall]
      rw [hnext] at happ ⊢
      rw [ih s' hlen, happ]

/-- **What lies ahead is what the calls dispense** until the first refusal. -/
theorem dispenses_ahead : ∀ (k : Nat)
    (s : CappedFeeWalletSource), s.ahead.length ≤ k → s.Dispenses s.ahead := by
  intro k
  induction k with
  | zero =>
    intro s hk
    rcases hcall : s.nextFeeInput with ⟨r, s'⟩
    cases r with
    | error e =>
      rw [List.eq_nil_of_length_eq_zero (Nat.le_zero.mp hk)]
      exact .refuses (e := e) (by rw [hcall])
    | ok x =>
      rw [(ahead_gives hcall).1] at hk
      exact absurd hk (Nat.not_succ_le_zero _)
  | succ k ih =>
    intro s hk
    rcases hcall : s.nextFeeInput with ⟨r, s'⟩
    cases r with
    | error e =>
      rw [(ahead_refuses (e := e) (by rw [hcall])).1]
      exact .refuses (e := e) (by rw [hcall])
    | ok x =>
      have hahead := (ahead_gives hcall).1
      rw [hahead, List.length_cons] at hk
      rw [hahead]
      exact .gives hcall (ih s' (by omega))

/-- The budget loop counts the affordable inputs. -/
theorem spendable_eq : ∀ (xs : List FeeInput) (cap running acc : Int),
    spendable cap running acc xs = acc + photons
      (affordable cap running xs) := by
  intro xs
  induction xs with
  | nil =>
    intro cap running acc
    exact (Int.add_zero acc).symm
  | cons x xs ih =>
    intro cap running acc
    rw [spendable, affordable]
    split
    · exact (Int.add_zero acc).symm
    · rw [ih, Int.add_assoc]
      rfl

/-- **`remaining_photons` is the value of what lies ahead.** -/
theorem remainingPhotons_eq (s : CappedFeeWalletSource) :
    s.remainingPhotons = photons s.ahead := by
  rw [remainingPhotons, spendable_eq, Int.zero_add, ahead]

end CappedFeeWalletSource

/-! ## The bounds -/

/-- The value of two lists of inputs adds up. -/
theorem photons_append (xs ys : List FeeInput) :
    photons (xs ++ ys) = photons xs + photons ys := by
  rw [photons, photons, photons, List.map_append, List.sum_append]

theorem photons_nonneg (xs : List FeeInput) : 0 ≤ photons xs := by
  induction xs with
  | nil => exact Int.le_refl 0
  | cons x xs ih =>
    have hx := x.ofValue
    show 0 ≤ x.value + photons xs
    omega

/-- The affordable inputs stay under the cap. -/
theorem affordable_le_cap : ∀ (xs : List FeeInput)
    (cap running : Int), running ≤ cap →
    running + photons (affordable cap running xs) ≤ cap := by
  intro xs
  induction xs with
  | nil =>
    intro cap running h
    rw [affordable]
    show running + 0 ≤ cap
    omega
  | cons x xs ih =>
    intro cap running h
    rw [affordable]
    split
    · show running + 0 ≤ cap
      omega
    · have := ih cap (running + x.value) (by omega)
      show running + (x.value + photons _) ≤ cap
      omega

theorem affordable_isPrefix : ∀ (xs : List FeeInput)
    (cap running : Int), affordable cap running xs <+: xs := by
  intro xs
  induction xs with
  | nil =>
    intro cap running
    exact List.prefix_refl _
  | cons x xs ih =>
    intro cap running
    rw [affordable]
    split
    · exact List.nil_prefix
    · exact List.cons_prefix_cons.mpr ⟨rfl, ih _ _⟩

/-- A constructed source has dispensed nothing yet. -/
theorem CappedFeeWalletSource.new_ok {ownerPkh : String → Except PyErr Bytes}
    {pool : List FeeInput} {totalCapPhotons : Int}
    {maxPerInputPhotons : Option Int} {s : CappedFeeWalletSource}
    (h : CappedFeeWalletSource.new ownerPkh pool totalCapPhotons
      maxPerInputPhotons = .ok s) :
    s = ⟨pool, 0, totalCapPhotons, 0, photons pool⟩ ∧ 0 < totalCapPhotons ∧
      (pool.map fun x => (x.txid, x.vout)).Nodup := by
  obtain ⟨-, h⟩ := refuseIf_bind_ok.mp h
  obtain ⟨hdup, h⟩ := refuseIf_bind_ok.mp h
  obtain ⟨hcap, h⟩ := refuseIf_bind_ok.mp h
  obtain ⟨-, -, h⟩ := bind_ok.mp h
  obtain ⟨-, -, h⟩ := bind_ok.mp h
  cases h
  exact ⟨rfl, Int.not_le.mp hcap, not_not.mp hdup⟩

/-! ## The main theorem -/

/-- **The accounts hold after all calls exactly when the dispensable inputs
differ as bytes**: when among the longest beginning of the pool that fits under
the cap no two outpoints are the same on the wire. -/
theorem accounts_iff {ownerPkh : String → Except PyErr Bytes}
    {pool : List FeeInput} {totalCapPhotons : Int}
    {maxPerInputPhotons : Option Int} {s : CappedFeeWalletSource}
    (h : CappedFeeWalletSource.new ownerPkh pool totalCapPhotons
      maxPerInputPhotons = .ok s) :
    (∀ calls, s.Accounts calls) ↔
    ((affordable totalCapPhotons 0 pool).map FeeInput.wireOutpoint).Nodup := by
  obtain ⟨rfl, hcap, -⟩ := CappedFeeWalletSource.new_ok h
  generalize hs : (⟨pool, 0, totalCapPhotons, 0, photons pool⟩ :
    CappedFeeWalletSource) = s
  have hahead : s.ahead = affordable totalCapPhotons 0 pool := by
    rw [← hs]
    rfl
  have hpool : s.pool = pool := by rw [← hs]
  have hcap' : s.cap = totalCapPhotons := by rw [← hs]
  rw [← hahead]
  constructor
  -- as many calls as there are inputs ahead dispense them all
  · intro hall
    have honce := (hall (List.replicate s.ahead.length .nextFeeInput)).once
    rwa [CappedFeeWalletSource.dispensed_replicate _ _ (Nat.le_refl _)] at honce
  · intro hnodup calls
    have hsplit := CappedFeeWalletSource.dispensed_append_ahead calls s
    have hle : photons (s.dispensed calls) ≤ photons s.ahead := by
      have := photons_nonneg (s.after calls).ahead
      rw [← hsplit, photons_append]
      omega
    refine ⟨?_, ?_, ?_, ?_, ?_⟩
    · have := affordable_le_cap pool totalCapPhotons 0 (by omega)
      rw [hcap']
      rw [hahead] at hle
      omega
    · obtain ⟨behind, hbehind⟩ := affordable_isPrefix pool totalCapPhotons 0
      have hrest := photons_nonneg behind
      have htotal := photons_append (affordable totalCapPhotons 0 pool) behind
      rw [hbehind] at htotal
      rw [hpool]
      rw [hahead] at hle
      omega
    · rw [← hsplit, List.map_append] at hnodup
      exact hnodup.of_append_left
    · intro e he
      exact (CappedFeeWalletSource.ahead_refuses he).2
    · exact ⟨_, CappedFeeWalletSource.dispenses_ahead _ _ (Nat.le_refl _),
        CappedFeeWalletSource.remainingPhotons_eq _⟩

/-- Txids as `hex` writes them are enough: then different texts are different
bytes. -/
theorem wireOutpoint_nodup {pool : List FeeInput} {cap : Int}
    (hdup : (pool.map fun x => (x.txid, x.vout)).Nodup)
    (hlower : ∀ x ∈ pool, ∃ b, x.txid = hex b) :
    ((affordable cap 0 pool).map FeeInput.wireOutpoint).Nodup := by
  have hsub : (affordable cap 0 pool).Sublist pool :=
    (affordable_isPrefix pool cap 0).sublist
  have htext : ((affordable cap 0 pool).map fun x => (x.txid, x.vout)).Nodup :=
    hdup.sublist (hsub.map _)
  rw [List.nodup_map_iff_inj_on (List.Nodup.of_map _ htext)]
  intro x hx y hy heq
  obtain ⟨b, hb⟩ := hlower x (hsub.subset hx)
  obtain ⟨c, hc⟩ := hlower y (hsub.subset hy)
  rw [FeeInput.wireOutpoint, FeeInput.wireOutpoint, hb, hc, fromHex_hex,
    fromHex_hex, Prod.mk.injEq, Option.map_some, Option.map_some,
    Option.some.injEq, List.reverse_inj] at heq
  refine List.inj_on_of_nodup_map htext hx hy ?_
  rw [Prod.mk.injEq, hb, hc, heq.1]
  exact ⟨rfl, heq.2⟩

/-! ## The same outpoint twice -/

/-- What a pool has to pass. -/
theorem CappedFeeWalletSource.new_returns
    {ownerPkh : String → Except PyErr Bytes} {pool : List FeeInput} {cap : Int}
    (hne : pool ≠ []) (hdup : (pool.map fun x => (x.txid, x.vout)).Nodup)
    (hcap : 0 < cap)
    (hcontrolled : ∀ x ∈ pool, checkControlled ownerPkh x = .ok ()) :
    CappedFeeWalletSource.new ownerPkh pool cap none = .ok ⟨pool, 0, cap, 0,
      photons pool⟩ := by
  have hall : pool.forM (checkControlled ownerPkh) = .ok () := by
    clear hne hdup
    induction pool with
    | nil => rfl
    | cons x pool ih =>
      obtain ⟨hx, hpool⟩ := List.forall_mem_cons.mp hcontrolled
      show (checkControlled ownerPkh x >>=
        fun _ => pool.forM (checkControlled ownerPkh)) = .ok ()
      rw [hx, ok_bind, ih hpool]
  rw [CappedFeeWalletSource.new, refuseIf,
    if_neg (fun h => hne (List.eq_nil_of_length_eq_zero h)), ok_bind, refuseIf,
    if_neg (not_not.mpr hdup), ok_bind, refuseIf, if_neg (Int.not_le.mpr hcap),
    ok_bind, checkCeiling, ok_bind, hall]
  rfl

/-- The sample input has a positive value. -/
theorem thousand_pos : (0 : Int) < 1000 := by decide

/-- The private key 1 and the hash of its public key. -/
def poolWif : String := "KwDiBf89QgGbjEhKnhXJuH7LrciVrZi3qYjgd9M7rFU73sVHnoWn"

def poolPkh : Bytes :=
  [0x75, 0x1E, 0x76, 0xE8, 0x19, 0x91, 0x96, 0xD4, 0x54, 0x94, 0x1C, 0x45, 0xD1,
    0xB3, 0xA3, 0x23,
   0xF1, 0x43, 0x3B, 0xD6]

/-- A fee input of 1000 photons, of which only the txid varies. -/
def thousandPhotons (txid : String)
    (h : txid.length = 64 ∧ (fromHex txid).isSome) : FeeInput where
  txid := txid
  vout := 0
  value := 1000
  scriptpubkey := [0x76, 0xA9, 0x14] ++ poolPkh ++ [0x88, 0xAC]
  wif := poolWif
  ofTxid := h
  ofVout := by decide
  ofValue := thousand_pos
  ofScriptpubkey := by decide

/-- What `PrivateKey` makes of that key, and of no other. -/
def poolOwner (wif : String) : Except PyErr Bytes :=
  if wif = poolWif then .ok poolPkh else .error (.other "unknown WIF")

/-- The sample owner controls it. -/
theorem thousandPhotons_controlled (txid : String)
    (h : txid.length = 64 ∧ (fromHex txid).isSome) :
    checkControlled poolOwner (thousandPhotons txid h) = .ok () := by
  have howner : poolOwner (thousandPhotons txid h).wif =
      .ok poolPkh := if_pos rfl
  have hpkh : p2pkhPkh (thousandPhotons txid h).scriptpubkey =
      some poolPkh := rfl
  rw [checkControlled, hpkh]
  dsimp only
  rw [howner]
  exact refuseIf_ok.mpr (not_not.mpr rfl)

/-- Two texts of one txid pass for two outpoints, and both are dispensed. -/
theorem dispensed_both {txid txid' : String}
    (h : txid.length = 64 ∧ (fromHex txid).isSome)
    (h' : txid'.length = 64 ∧ (fromHex txid').isSome)
    (hne : txid ≠ txid') (hsame : fromHex txid = fromHex txid') :
    ∃ s, CappedFeeWalletSource.new poolOwner [thousandPhotons txid h,
      thousandPhotons txid' h'] 2000 none = .ok s ∧
    s.dispensed [.nextFeeInput, .nextFeeInput] = [thousandPhotons txid h,
      thousandPhotons txid' h'] ∧ (thousandPhotons txid h).wireOutpoint =
      (thousandPhotons txid' h').wireOutpoint := by
  refine ⟨⟨[thousandPhotons txid h, thousandPhotons txid' h'], 0, 2000, 0, _⟩,
    CappedFeeWalletSource.new_returns (List.cons_ne_nil _ _) ?_ (by decide) ?_,
      rfl, ?_⟩
  · refine List.nodup_cons.mpr ⟨fun hmem => ?_, List.nodup_singleton _⟩
    exact hne (congrArg Prod.fst (List.mem_singleton.mp hmem))
  · intro x hx
    rcases List.mem_cons.mp hx with rfl | hx
    · exact thousandPhotons_controlled txid h
    · rw [List.mem_singleton.mp hx]
      exact thousandPhotons_controlled txid' h'
  · rw [FeeInput.wireOutpoint, FeeInput.wireOutpoint]
    show ((fromHex txid).map List.reverse, (0 : Int)) =
      ((fromHex txid').map List.reverse, 0)
    rw [hsame]

/-- A txid of one repeated byte. -/
def lowerTxid (b : UInt8) : String := hex (List.replicate 32 b)

/-- `2 * n` upper-case digits. -/
def upperHex (n : Nat) : String := String.ofList (List.replicate (2 * n) 'A')

/-- The sample txid is one in lower case. -/
theorem lowerTxid_ok (b : UInt8) :
    (lowerTxid b).length = 64 ∧ (fromHex (lowerTxid b)).isSome := by
  refine ⟨length_hex _, ?_⟩
  rw [lowerTxid, fromHex_hex]
  rfl

/-- Upper-case hex reads as the same bytes. -/
theorem fromHexChars_upper (n : Nat) : fromHexChars
    (List.replicate (2 * n) 'A') = some (List.replicate n 0xAA) := by
  induction n with
  | zero => rfl
  | succ n ih =>
    rw [Nat.mul_succ, List.replicate_succ, List.replicate_succ, fromHexChars,
      if_neg (by decide), ih]
    rfl

theorem fromHex_upperHex (n : Nat) :
    fromHex (upperHex n) = some (List.replicate n 0xAA) := by
  rw [fromHex, upperHex, String.toList_ofList, fromHexChars_upper]

/-- So the upper-case spelling passes the check too. -/
theorem upperHex_ok : (upperHex 32).length = 64 ∧
    (fromHex (upperHex 32)).isSome := by
  rw [fromHex_upperHex, upperHex, String.length_ofList, List.length_replicate]
  exact ⟨rfl, rfl⟩

/-- A pool of three inputs, the last of which is beyond the cap. -/
def threeInputs : List FeeInput :=
  [0xAA, 0xBB, 0xCC].map fun b => thousandPhotons (lowerTxid b) (lowerTxid_ok b)

/-- The sample pool has no duplicate outpoint. -/
theorem threeInputs_nodup :
    (threeInputs.map fun x => (x.txid, x.vout)).Nodup := by
  have hinj : ∀ b c : UInt8, lowerTxid b = lowerTxid c → b = c := by
    intro b c h
    have hbytes := congrArg fromHex h
    rw [lowerTxid, lowerTxid, fromHex_hex, fromHex_hex,
      Option.some.injEq] at hbytes
    exact (List.replicate_right_inj (by decide)).mp hbytes
  rw [threeInputs, List.map_map]
  refine List.Nodup.map (fun b c h =>
    hinj b c (congrArg Prod.fst h)) (by decide)

/-- The statement at a pool of three inputs. -/
theorem accounts_three :
    ∃ s, CappedFeeWalletSource.new poolOwner threeInputs 2000 none = .ok s ∧
    ∀ calls, s.Accounts calls := by
  have hnew : CappedFeeWalletSource.new poolOwner threeInputs 2000 none =
      .ok ⟨threeInputs, 0, 2000, 0, photons threeInputs⟩ := by
    refine CappedFeeWalletSource.new_returns
      (List.cons_ne_nil _ _) threeInputs_nodup (by decide) ?_
    intro x hx
    obtain ⟨b, -, rfl⟩ := List.mem_map.mp hx
    exact thousandPhotons_controlled _ _
  refine ⟨_, hnew, (accounts_iff hnew).mpr
    (wireOutpoint_nodup threeInputs_nodup fun x hx => ?_)⟩
  obtain ⟨b, -, rfl⟩ := List.mem_map.mp hx
  exact ⟨_, rfl⟩

/-- **One outpoint, in lower and in upper case, is dispensed twice.** -/
theorem dispensed_twice : ∃ s, CappedFeeWalletSource.new poolOwner
    [thousandPhotons (lowerTxid 0xAA) (lowerTxid_ok 0xAA),
      thousandPhotons (upperHex 32) upperHex_ok] 2000 none = .ok s ∧
    s.dispensed [.nextFeeInput, .nextFeeInput] =
      [thousandPhotons (lowerTxid 0xAA) (lowerTxid_ok 0xAA),
        thousandPhotons (upperHex 32) upperHex_ok] ∧
        (thousandPhotons (lowerTxid 0xAA) (lowerTxid_ok 0xAA)).wireOutpoint =
        (thousandPhotons (upperHex 32) upperHex_ok).wireOutpoint := by
  refine dispensed_both (lowerTxid_ok 0xAA) upperHex_ok ?_ ?_
  · intro heq
    have h := congrArg (fun t => t.toList.head?) heq
    rw [lowerTxid, upperHex, hex] at h
    rw [String.toList_ofList, String.toList_ofList] at h
    exact absurd h (by decide)
  · rw [fromHex_upperHex, lowerTxid, fromHex_hex]

end Pyrxd.Gravity
