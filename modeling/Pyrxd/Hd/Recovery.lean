import Pyrxd.Hd.Addresses
import Pyrxd.Hd.Derivation

/-!
# What a wallet recovers

Runs of a wallet's address book from a new wallet on, with a client of its own
for every call. While no history is lost, a refresh that returns marks the known
addresses that no gap precedes, by their history, and with them every address
that was handed out before (`addresses_recovered`). The balance and the UTXOs
are exact just when no question about a used address fails: `gather` returns a
failed one like any other answer, and it adds nothing.
-/

namespace Pyrxd.Hd

open Pyrxd.Lib Pyrxd.Tx
open Pyrxd.Gravity (UtxoRecord)
open Pyrxd.Wallet (gapLimit)

variable {Key Secret : Type} (hd : HdCurve Key Secret)

/-! ## Statements -/

/-- The chain has transactions of the address. -/
def AddressHasHistory (client : ElectrumXClient) (address : String) : Prop :=
  ∃ scriptHash, scriptHashForAddress address = .ok scriptHash ∧
    client.history scriptHash ≠ []

/-- The chain has transactions of the address at `change/index`. -/
def HasHistory (client : ElectrumXClient) (keys : HdWallet Secret)
    (change index : Nat) : Prop :=
  ∃ address, keys.deriveAddress hd change index = .ok address ∧
    AddressHasHistory client address

inductive Event where
  | refresh (client : ElectrumXClient) (result : Except PyErr Nat)
  | received (result : Except PyErr String)
  | changeIndex (result : Except PyErr Nat)
  | balance (client : ElectrumXClient) (result : Except PyErr Int)
  | utxos (client : ElectrumXClient) (result : Except PyErr (List UtxoRecord))

/-- One call. -/
inductive Does : AddressBook Secret → Event → AddressBook Secret → Prop
  | refresh {w w' : AddressBook Secret} {client : ElectrumXClient} {fuel : Nat}
      {result : Except PyErr Nat}
    (h : w.refresh hd client fuel = some (result, w')) :
      Does w (.refresh client result) w'
  | received {w : AddressBook Secret} :
      Does w (.received (w.nextReceiveAddress hd).1) (w.nextReceiveAddress hd).2
  | changeIndex {w : AddressBook Secret} :
      Does w (.changeIndex (w.nextChangeIndex hd).1) (w.nextChangeIndex hd).2
  | balance {w : AddressBook Secret} (client : ElectrumXClient) :
      Does w (.balance client (w.getBalance client)) w
  | utxos {w : AddressBook Secret} (client : ElectrumXClient) :
      Does w (.utxos client (w.getUtxos client)) w

/-- Calls one after the other. -/
inductive Run (w : AddressBook Secret) : List Event → AddressBook Secret → Prop
  | start : Run w [] w
  | step {events : List Event} {e : Event} {w' w'' : AddressBook Secret}
      (h : Run w events w') (he : Does hd w' e w'') : Run w (events ++ [e]) w''

/-- No history that an earlier refresh could see is lost. -/
def HistoryKept (events : List Event) (client : ElectrumXClient) : Prop :=
  ∀ earlier result, .refresh earlier result ∈ events → ∀ scriptHash,
    earlier.history scriptHash ≠ [] → client.history scriptHash ≠ []

/-- The call hands out an address: as `next_receive_address`, or as
`_next_change_index` by its index. -/
def HandsOut (keys : HdWallet Secret) (address : String) : Event → Prop
  | .received (.ok a) => a = address
  | .changeIndex (.ok index) => keys.deriveAddress hd 1 index = .ok address
  | _ => False

/-- The address has been handed out. -/
def HandedOut (keys : HdWallet Secret) (events : List Event)
    (address : String) : Prop :=
  ∃ e ∈ events, HandsOut hd keys address e

/-- Every known address is marked as used exactly if it has history and no gap
precedes it. -/
def Marked (client : ElectrumXClient) (keys : HdWallet Secret)
    (w : AddressBook Secret) : Prop :=
  ∀ change index r, w.addresses.get? (change, index) = some r →
    (r.used = true ↔ HasHistory hd client keys change index ∧
      Reaches (HasHistory hd client keys change) gapLimit index)

/-- Every address that was handed out is marked as used if it has history. -/
def HandedOutMarked (client : ElectrumXClient) (keys : HdWallet Secret)
    (events : List Event)
    (w : AddressBook Secret) : Prop :=
  ∀ address, HandedOut hd keys events address →
    AddressHasHistory client address →
    ∃ k r, w.addresses.get? k = some r ∧ r.address = address ∧ r.used = true

/-- The script hash of a known address. -/
def AddressRecord.scriptHash (r : AddressRecord) : Bytes :=
  (scriptHashForAddress r.address).toOption.getD []

/-- A question about any of the used addresses is answered. -/
def AllAnswered (w : AddressBook Secret) (client : ElectrumXClient) : Prop :=
  ∀ r ∈ w.usedRecords, client.failure r.scriptHash = none

/-- A query raises, or returns what is asked for after every question has been
answered. -/
def Exact {α : Type} (w : AddressBook Secret) (client : ElectrumXClient)
    (result : Except PyErr α) (truth : α) : Prop :=
  ∀ a, result = .ok a → AllAnswered w client ∧ a = truth

/-- The balance of all used known addresses. -/
def knownBalance (w : AddressBook Secret) (client : ElectrumXClient) : Int :=
  (w.usedRecords.map fun r => (client.balance r.scriptHash).1 +
    (client.balance r.scriptHash).2).sum

/-- The UTXOs of all used known addresses. -/
def knownUtxos (w : AddressBook Secret) (client : ElectrumXClient) :
    List UtxoRecord :=
  (w.usedRecords.map fun r => client.utxos r.scriptHash).flatten

/-! ## One scan -/

section Scan

variable {hd} {keys : HdWallet Secret} {client : ElectrumXClient}
  {change index : Nat}

/-- What a client answers is what it was asked for. -/
theorem answer_ok {α : Type} {scriptHash : Bytes} {a b : α}
    (h : client.answer scriptHash a = .ok b) : b = a := by
  unfold ElectrumXClient.answer at h
  split at h
  · cases h
  · cases h
    rfl

/-- A look returns the address and whether it has history. -/
theorem look_ok {address : String} {isUsed : Bool}
    (h : keys.look hd client change index = .ok (address, isUsed)) :
    keys.deriveAddress hd change index = .ok address ∧
    (isUsed = true ↔ HasHistory hd client keys change index) := by
  unfold HdWallet.look at h
  obtain ⟨a, ha, h⟩ := bind_ok.mp h
  obtain ⟨scriptHash, hhash, h⟩ := bind_ok.mp h
  obtain ⟨hist, hhist, h⟩ := bind_ok.mp h
  cases h
  have hsame := answer_ok hhist
  refine ⟨ha, ?_⟩
  rw [Bool.not_eq_true', List.isEmpty_eq_false_iff, hsame]
  constructor
  · intro hne
    exact ⟨address, ha, scriptHash, hhash, hne⟩
  · rintro ⟨a, ha', hash, hhash', hne⟩
    rw [ha, Except.ok.injEq] at ha'
    rw [← ha', hhash, Except.ok.injEq] at hhash'
    rw [hhash']
    exact hne

/-- A turn whose question fails. -/
theorem scanLoop_raises {fuel : Nat} {t : Scan} {e : PyErr}
    (hlimit : t.consecutiveUnused < gapLimit)
    (hlook : keys.look hd client change t.index = .error e) :
    keys.scanLoop hd client change (fuel + 1) t = some (.error e, t) := by
  rw [HdWallet.scanLoop, if_pos hlimit, hlook]

/-- A turn whose question is answered. -/
theorem scanLoop_goes_on {fuel : Nat} {t : Scan} {address : String}
    {isUsed : Bool}
    (hlimit : t.consecutiveUnused < gapLimit)
    (hlook : keys.look hd client change t.index = .ok (address, isUsed)) :
    keys.scanLoop hd client change (fuel + 1) t =
      keys.scanLoop hd client change fuel (t.next change address isUsed) := by
  rw [HdWallet.scanLoop, if_pos hlimit, hlook]

/-- No turn behind the limit. -/
theorem scanLoop_stops {fuel : Nat} {t : Scan}
    (hlimit : ¬ t.consecutiveUnused < gapLimit) :
    keys.scanLoop hd client change (fuel + 1) t = some (.ok (), t) := by
  rw [HdWallet.scanLoop, if_neg hlimit]

/-- What stands in a record that a scan has written. -/
def WrittenAt (hd : HdCurve Key Secret) (client : ElectrumXClient)
    (keys : HdWallet Secret)
    (addresses : OrderedMap (Nat × Nat) AddressRecord)
    (change index : Nat) : Prop :=
  ∃ address isUsed, addresses.get? (change, index) = some ⟨address, change,
    index, isUsed⟩ ∧
    keys.deriveAddress hd change index = .ok address ∧
      (isUsed = true ↔ HasHistory hd client keys change index)

/-- Where the loop of a scan stands. -/
structure Scanned (hd : HdCurve Key Secret)
    (client : ElectrumXClient) (keys : HdWallet Secret) (change : Nat)
    (before : OrderedMap (Nat × Nat) AddressRecord) (t : Scan) : Prop where
  scanAt : ScanAt (HasHistory hd client keys change) gapLimit t.index
    t.consecutiveUnused
  written : ∀ i < t.index, WrittenAt hd client keys t.addresses change i
  others : ∀ k, ¬ (k.1 = change ∧ k.2 < t.index) →
    t.addresses.get? k = before.get? k

variable {before : OrderedMap (Nat × Nat) AddressRecord} {t t' : Scan}

/-- The scan's invariant before its first look. -/
theorem Scanned.start : Scanned hd client keys change before ⟨0, 0,
    0, before⟩ where
  scanAt := .start
  written := nofun
  others := fun _ _ => rfl

/-- One turn of the loop. -/
theorem Scanned.next {address : String} {isUsed : Bool}
    (h : Scanned hd client keys change before t)
    (hlimit : t.consecutiveUnused < gapLimit)
    (hlook : keys.look hd client change t.index = .ok (address, isUsed)) :
    Scanned hd client keys change before (t.next change address isUsed) := by
  obtain ⟨haddress, hused⟩ := look_ok hlook
  refine ⟨?_, ?_, ?_⟩
  · cases isUsed with
    | true => exact h.scanAt.hit hlimit (hused.mp rfl)
    | false =>
      exact h.scanAt.miss hlimit fun hp => Bool.noConfusion (hused.mpr hp)
  · intro i hi
    show WrittenAt hd client keys (t.addresses.set (change, t.index) ⟨address,
      change, t.index, isUsed⟩) change i
    by_cases hat : i = t.index
    · rw [hat]
      exact ⟨address, isUsed, by rw [OrderedMap.get?_set,
        if_pos rfl], haddress, hused⟩
    · have hlt : i < t.index + 1 := hi
      obtain ⟨a, u, hget, hrest⟩ := h.written i (by omega)
      refine ⟨a, u, ?_, hrest⟩
      rw [OrderedMap.get?_set, if_neg fun hk => hat (Prod.mk.inj hk).2, hget]
  · intro k hk
    have hlt : ¬ (k.1 = change ∧ k.2 < t.index + 1) := hk
    show (t.addresses.set (change, t.index) _).get? k = _
    rw [OrderedMap.get?_set, if_neg fun heq =>
      hlt ⟨congrArg Prod.fst heq, by rw [heq]; exact Nat.lt_succ_self _⟩]
    exact h.others k fun hin => hlt ⟨hin.1, by omega⟩

/-- The whole loop. -/
theorem scanLoop_scanned {fuel : Nat} {r : Except PyErr Unit} : ∀ {t : Scan},
    Scanned hd client keys change before t →
    keys.scanLoop hd client change fuel t = some (r, t') →
      Scanned hd client keys change before t' ∧
        (r = .ok () → t'.consecutiveUnused = gapLimit) := by
  induction fuel with
  | zero => intro t _ h; cases h
  | succ fuel ih =>
    intro t ht h
    by_cases hlimit : t.consecutiveUnused < gapLimit
    · cases hlook : keys.look hd client change t.index with
      | error e =>
        rw [scanLoop_raises hlimit hlook] at h
        cases h
        exact ⟨ht, nofun⟩
      | ok answer =>
        rw [scanLoop_goes_on hlimit hlook] at h
        exact ih (ht.next hlimit hlook) h
    · rw [scanLoop_stops hlimit] at h
      cases h
      have hle := ht.scanAt.limit
      exact ⟨ht, fun _ => by omega⟩

end Scan

/-! ## One refresh -/

section Refresh

variable {hd} {client : ElectrumXClient} {w w' w'' : AddressBook Secret}
  {change n m : Nat}

/-- A scan of a chain without history from some index on ends, given enough
fuel. -/
theorem scanLoop_ends {keys : HdWallet Secret} {bound : Nat}
    (hbound : ∀ i, bound ≤ i → ¬ HasHistory hd client keys change i) :
    ∀ (left : Nat) (t : Scan),
    (bound - t.index) * (gapLimit + 1) +
      (gapLimit - t.consecutiveUnused) ≤ left →
      ∃ fuel result, keys.scanLoop hd client change fuel t = some result := by
  intro left
  induction left with
  | zero =>
    intro t hleft
    have hlimit : ¬ t.consecutiveUnused < gapLimit := by omega
    exact ⟨1, _, scanLoop_stops hlimit⟩
  | succ left ih =>
    intro t hleft
    by_cases hlimit : t.consecutiveUnused < gapLimit
    · cases hlook : keys.look hd client change t.index with
      | error e => exact ⟨1, _, scanLoop_raises hlimit hlook⟩
      | ok answer =>
        obtain ⟨address, isUsed⟩ := answer
        have hnext : (bound - (t.index + 1)) * (gapLimit + 1) +
            (gapLimit - if isUsed then 0
              else t.consecutiveUnused + 1) ≤ left := by
          rcases Nat.lt_or_ge t.index bound with hlt | hge
          · have hstep : bound - t.index = bound - (t.index + 1) + 1 := by omega
            rw [hstep, Nat.add_mul] at hleft
            omega
          · -- behind the bound every address is unused
            have hunused : isUsed = false := by
              rw [← Bool.not_eq_true]
              exact fun hused => hbound _ hge ((look_ok hlook).2.mp hused)
            rw [hunused, if_neg Bool.false_ne_true]
            have hzero : bound - t.index = 0 := by omega
            have hzero' : bound - (t.index + 1) = 0 := by omega
            rw [hzero, Nat.zero_mul] at hleft
            rw [hzero', Nat.zero_mul]
            omega
        obtain ⟨fuel, result, hrun⟩ := ih (t.next change address isUsed) hnext
        exact ⟨fuel + 1, result, (scanLoop_goes_on hlimit hlook).trans hrun⟩
    · exact ⟨1, _, scanLoop_stops hlimit⟩

/-- More fuel does not change the end of a scan. -/
theorem scanLoop_mono {keys : HdWallet Secret}
    {fuel more : Nat} {result : Except PyErr Unit × Scan} :
    ∀ {t : Scan}, keys.scanLoop hd client change fuel t = some result →
      keys.scanLoop hd client change (fuel + more) t = some result := by
  induction fuel with
  | zero => intro t h; cases h
  | succ fuel ih =>
    intro t h
    rw [Nat.succ_add]
    by_cases hlimit : t.consecutiveUnused < gapLimit
    · cases hlook : keys.look hd client change t.index with
      | error e =>
        rw [scanLoop_raises hlimit hlook] at h ⊢
        exact h
      | ok answer =>
        rw [scanLoop_goes_on hlimit hlook] at h ⊢
        exact ih h
    · rw [scanLoop_stops hlimit] at h ⊢
      exact h

/-- A wallet that has been scanned up to an index of a chain. -/
structure ScannedTo (hd : HdCurve Key Secret) (client : ElectrumXClient)
    (change n : Nat) (w w' : AddressBook Secret) : Prop where
  keys : w'.keys = w.keys
  reached : ∀ i < n, Reaches (HasHistory hd client w.keys change) gapLimit i
  written : ∀ i < n, WrittenAt hd client w.keys w'.addresses change i
  others : ∀ k, ¬ (k.1 = change ∧ k.2 < n) →
    w'.addresses.get? k = w.addresses.get? k

/-- The scan has gone on to the first gap. -/
def Complete (hd : HdCurve Key Secret) (client : ElectrumXClient)
    (keys : HdWallet Secret) (change n : Nat) : Prop :=
  ∀ i, Reaches (HasHistory hd client keys change) gapLimit i → i < n

/-- Moving the tip keeps the keys. -/
@[simp] theorem withTip_keys (tip : Nat) :
    (w.withTip change tip).keys = w.keys := by
  rw [AddressBook.withTip]
  split <;> rfl

@[simp] theorem withTip_addresses (tip : Nat) :
    (w.withTip change tip).addresses = w.addresses := by
  rw [AddressBook.withTip]
  split <;> rfl

/-- What a scan of one chain has done, and when it is complete. -/
theorem scanChain_scanned {fuel : Nat} {r : Except PyErr Nat}
    (h : w.scanChain hd client change fuel = some (r, w')) :
    ∃ n, ScannedTo hd client change n w w' ∧ ∀ count, r = .ok count →
    Complete hd client w.keys change n := by
  unfold AddressBook.scanChain at h
  split at h
  · cases h
  · next e t hloop =>
    cases h
    obtain ⟨hscan, -⟩ := scanLoop_scanned .start hloop
    exact ⟨t.index, ⟨rfl, hscan.scanAt.reaches, hscan.written,
      hscan.others⟩, nofun⟩
  · next t hloop =>
    cases h
    obtain ⟨hscan, hdone⟩ := scanLoop_scanned .start hloop
    have hat := hscan.scanAt
    rw [hdone rfl] at hat
    refine ⟨t.index, ⟨withTip_keys _, hat.reaches, ?_, ?_⟩,
      fun _ _ i hi => hat.covers.mpr hi⟩
    · rw [withTip_addresses]
      exact hscan.written
    · rw [withTip_addresses]
      exact hscan.others

/-- Both chains, each up to an index of its own. -/
structure Refreshed (hd : HdCurve Key Secret) (client : ElectrumXClient)
    (n : Nat → Nat) (w w' : AddressBook Secret) : Prop where
  keys : w'.keys = w.keys
  chain : ∀ change i, i < n change → change < 2
  reached : ∀ change i, i < n change →
    Reaches (HasHistory hd client w.keys change) gapLimit i
  written : ∀ change i, i < n change →
    WrittenAt hd client w.keys w'.addresses change i
  others : ∀ k, ¬ k.2 < n k.1 → w'.addresses.get? k = w.addresses.get? k

/-- How far the two chains have been scanned. -/
def twoChains (n m change : Nat) : Nat := if change = 0 then n
  else if change = 1 then m else 0

theorem Refreshed.of_chains (h : ScannedTo hd client 0 n w w')
    (h' : ScannedTo hd client 1 m w' w'') :
    Refreshed hd client (twoChains n m) w w'' := by
  refine ⟨h'.keys.trans h.keys, ?_, ?_, ?_, ?_⟩
  · intro change i hi
    rw [twoChains] at hi
    split at hi
    · omega
    · split at hi <;> omega
  · intro change i hi
    rw [twoChains] at hi
    split at hi
    · next hc => exact hc ▸ h.reached i hi
    · split at hi
      · next hc =>
        rw [hc, ← h.keys]
        exact h'.reached i hi
      · exact absurd hi (Nat.not_lt_zero i)
  · intro change i hi
    rw [twoChains] at hi
    split at hi
    · next hc =>
      rw [hc]
      obtain ⟨address, isUsed, hget, hrest⟩ := h.written i hi
      exact ⟨address, isUsed, by rw [h'.others (0,
        i) fun hk => absurd hk.1 Nat.zero_ne_one, hget], hrest⟩
    · split at hi
      · next hc =>
        rw [hc, ← h.keys]
        exact h'.written i hi
      · exact absurd hi (Nat.not_lt_zero i)
  · intro k hk
    have hfirst : ¬ (k.1 = 0 ∧ k.2 < n) :=
      fun hin => hk (by rw [twoChains, if_pos hin.1]; exact hin.2)
    have hsecond : ¬ (k.1 = 1 ∧ k.2 < m) := by
      intro hin
      refine hk ?_
      rw [twoChains, if_neg (by omega), if_pos hin.1]
      exact hin.2
    rw [h'.others k hsecond, h.others k hfirst]

/-- A scan of nothing changes nothing. -/
theorem ScannedTo.refl (w : AddressBook Secret) :
    ScannedTo hd client change 0 w w :=
  ⟨rfl, nofun, nofun, fun _ _ => rfl⟩

/-- What a refresh does, whether it returns or raises. -/
theorem refresh_refreshed {fuel : Nat} {r : Except PyErr Nat}
    (h : w.refresh hd client fuel = some (r, w')) :
    ∃ n, Refreshed hd client n w w' ∧
      ∀ count, r = .ok count → ∀ change, change < 2 →
        Complete hd client w.keys change (n change) := by
  unfold AddressBook.refresh at h
  split at h
  · cases h
  · next e mid hfirst =>
    cases h
    obtain ⟨n, hscan, -⟩ := scanChain_scanned hfirst
    exact ⟨twoChains n 0, .of_chains hscan (.refl _), nofun⟩
  · next external mid hfirst =>
    obtain ⟨n, hscan, hcomplete⟩ := scanChain_scanned hfirst
    split at h
    · cases h
    · next e last hsecond =>
      cases h
      obtain ⟨m, hscan', -⟩ := scanChain_scanned hsecond
      exact ⟨twoChains n m, .of_chains hscan hscan', nofun⟩
    · next internal last hsecond =>
      cases h
      obtain ⟨m, hscan', hcomplete'⟩ := scanChain_scanned hsecond
      refine ⟨twoChains n m, .of_chains hscan hscan',
        fun _ _ change hchange => ?_⟩
      rcases Nat.le_one_iff_eq_zero_or_eq_one.mp
        (Nat.lt_succ_iff.mp hchange) with rfl | rfl
      · exact hcomplete _ rfl
      · rw [← hscan.keys]
        exact hcomplete' _ rfl

/-- A refresh raises with the scan of its first chain, and keeps the records of
it. -/
theorem refresh_raises {fuel : Nat} {e : PyErr} {t : Scan}
    (h : w.keys.scanLoop hd client 0 fuel ⟨0, 0, 0,
      w.addresses⟩ = some (.error e, t)) :
    w.refresh hd client fuel = some (.error e,
      { w with addresses := t.addresses }) := by
  rw [AddressBook.refresh, AddressBook.scanChain, h]

/-- **A refresh ends**: with enough fuel it returns or raises, if no address
from some index on has history. -/
theorem refresh_ends {bound : Nat}
    (hbound : ∀ change i, bound ≤ i → ¬ HasHistory hd client w.keys change i) :
    ∃ fuel result, w.refresh hd client fuel = some result := by
  obtain ⟨fuel, ⟨r, t⟩, hloop⟩ :=
    scanLoop_ends (hbound 0) _ ⟨0, 0, 0, w.addresses⟩ (Nat.le_refl _)
  cases r with
  | error e => exact ⟨fuel, _, refresh_raises hloop⟩
  | ok u =>
    let mid :=
      { w with addresses := t.addresses }.withTip 0 (tipOf t.addresses 0)
    have hkeys : mid.keys = w.keys := withTip_keys _
    have hbound' : ∀ i, bound ≤ i → ¬ HasHistory hd client mid.keys 1 i := by
      rw [hkeys]
      exact hbound 1
    obtain ⟨fuel', ⟨r', t'⟩, hloop'⟩ :=
      scanLoop_ends hbound' _ ⟨0, 0, 0, mid.addresses⟩ (Nat.le_refl _)
    have hfirst : w.scanChain hd client 0 (fuel + fuel') =
        some (.ok t.newlyUsed, mid) := by
      rw [AddressBook.scanChain, scanLoop_mono hloop]
    have hsecond := @scanLoop_mono _ _ _ _ _ _ _ fuel _ _ hloop'
    rw [Nat.add_comm] at hsecond
    refine ⟨fuel + fuel', ?_⟩
    rw [AddressBook.refresh, hfirst]
    dsimp only
    rw [AddressBook.scanChain, hsecond]
    cases r' with
    | error e => exact ⟨_, rfl⟩
    | ok u => exact ⟨_, rfl⟩

end Refresh

/-! ## Runs -/

section Runs

variable {hd} {keys : HdWallet Secret} {events : List Event}
  {w w' : AddressBook Secret} {e : Event}
  {change index : Nat}

/-- A refresh has marked the address as used. -/
def Seen (hd : HdCurve Key Secret) (keys : HdWallet Secret)
    (events : List Event) (change index : Nat) : Prop :=
  ∃ client result, .refresh client result ∈ events ∧
    HasHistory hd client keys change index ∧
    Reaches (HasHistory hd client keys change) gapLimit index

/-- The address is one of the wallet's, and those in front of it have all been
seen. -/
def Reachable (hd : HdCurve Key Secret) (keys : HdWallet Secret)
    (events : List Event) (address : String) : Prop :=
  ∃ change index : Nat, change < 2 ∧
    keys.deriveAddress hd change index = .ok address ∧
    ∀ i < index, Seen hd keys events change i

/-- What a run keeps: the records are of the wallet's addresses, what is marked
as used has been seen, and what was handed out is reachable. -/
structure Kept (hd : HdCurve Key Secret) (keys : HdWallet Secret)
    (events : List Event) (w : AddressBook Secret) : Prop where
  own : w.keys = keys
  placed : ∀ k r, w.addresses.get? k = some r →
    k.1 < 2 ∧ keys.deriveAddress hd k.1 k.2 = .ok r.address
  seen : ∀ k r, w.addresses.get? k = some r → r.used = true →
    Seen hd keys events k.1 k.2
  handed : ∀ address, HandedOut hd keys events address →
    Reachable hd keys events address

theorem Seen.later (h : Seen hd keys events change index) :
    Seen hd keys (events ++ [e]) change index := by
  obtain ⟨client, result, hmem, hrest⟩ := h
  exact ⟨client, result, List.mem_append_left _ hmem, hrest⟩

/-- What is reachable stays reachable. -/
theorem Reachable.later {address : String}
    (h : Reachable hd keys events address) :
    Reachable hd keys (events ++ [e]) address := by
  obtain ⟨change, index, hchange, hderive, hseen⟩ := h
  exact ⟨change, index, hchange, hderive, fun i hi => (hseen i hi).later⟩

/-- The start of a run. -/
theorem Kept.start : Kept hd keys [] keys.book where
  own := rfl
  placed := nofun
  seen := nofun
  handed := by
    rintro address ⟨e, he, -⟩
    cases he

/-- A call that changes nothing and hands out a reachable address, if any. -/
theorem Kept.idle (h : Kept hd keys events w)
    (hnew : ∀ address, HandsOut hd keys address e →
      Reachable hd keys events address) :
    Kept hd keys (events ++ [e]) w := by
  refine ⟨h.own, h.placed, fun k r hr hused => (h.seen k r hr hused).later, ?_⟩
  rintro address ⟨e', he', hout⟩
  rcases List.mem_append.mp he' with hold | hlast
  · exact (h.handed address ⟨e', hold, hout⟩).later
  · rw [List.mem_singleton.mp hlast] at hout
    exact (hnew address hout).later

/-- A new record of a derived address, not marked as used. -/
theorem Kept.record (h : Kept hd keys events w) (hchange : change < 2) :
    Kept hd keys events (w.record hd change index).2 := by
  unfold AddressBook.record
  split
  · exact h
  · next address hderive =>
    rw [h.own] at hderive
    refine ⟨h.own, ?_, ?_, h.handed⟩
    · intro k r hr
      have hr : (w.addresses.set (change, index) ⟨address, change, index,
          false⟩).get? k = some r := hr
      rw [OrderedMap.get?_set] at hr
      split at hr
      · next hk =>
        cases hr
        rw [hk]
        exact ⟨hchange, hderive⟩
      · exact h.placed k r hr
    · intro k r hr hused
      have hr : (w.addresses.set (change, index) ⟨address, change, index,
          false⟩).get? k = some r := hr
      rw [OrderedMap.get?_set] at hr
      split at hr
      · cases hr
        cases hused
      · exact h.seen k r hr hused

/-- A record is of the derived address. -/
theorem record_ok {address : String}
    (h : (w.record hd change index).1 = .ok address) :
    w.keys.deriveAddress hd change index = .ok address := by
  unfold AddressBook.record at h
  split at h
  · cases h
  · next a hderive =>
    cases h
    exact hderive

/-- Marked as used, so seen. -/
theorem Kept.of_isUsed (h : Kept hd keys events w)
    (hused : w.isUsed change index = true) :
    Seen hd keys events change index := by
  unfold AddressBook.isUsed at hused
  cases hget : w.addresses.get? (change, index) with
  | none =>
    rw [hget] at hused
    cases hused
  | some r =>
    rw [hget] at hused
    exact h.seen (change, index) r hget hused

/-- All indices in front of the first unused one are used. -/
theorem used_before_first {tip : Nat}
    (h : w.firstUnused change tip = some index) :
    ∀ i < index, w.isUsed change i = true := by
  intro i hi
  obtain ⟨-, -, hbefore⟩ := List.find?_range_eq_some.mp h
  have hnot := hbefore i hi
  rwa [Bool.not_not] at hnot

/-- Without an unused address below the gap, all of them are used. -/
theorem used_below_tip {tip : Nat} (h : w.firstUnused change tip = none) :
    ∀ i < tip + gapLimit, w.isUsed change i = true := by
  intro i hi
  rw [AddressBook.firstUnused, List.find?_range_eq_none] at h
  have hnot := h i hi
  rwa [Bool.not_not] at hnot

/-- A refresh. -/
theorem Kept.refresh {client : ElectrumXClient} {fuel : Nat}
    {result : Except PyErr Nat} (h : Kept hd keys events w)
    (hr : w.refresh hd client fuel = some (result, w')) :
    Kept hd keys (events ++ [.refresh client result]) w' := by
  obtain ⟨n, hscan, -⟩ := refresh_refreshed hr
  have hidle := h.idle (e := .refresh client result) fun _ hout => hout.elim
  have hmem : Event.refresh client result ∈
      events ++ [.refresh client result] :=
    List.mem_append_right _ (List.mem_singleton_self _)
  refine ⟨hscan.keys.trans h.own, ?_, ?_, hidle.handed⟩
  · intro k r hget
    by_cases hk : k.2 < n k.1
    · obtain ⟨address, isUsed, hwritten, hderive, -⟩ := hscan.written _ _ hk
      rw [hget, Option.some.injEq] at hwritten
      rw [h.own] at hderive
      rw [hwritten]
      exact ⟨hscan.chain _ _ hk, hderive⟩
    · rw [hscan.others k hk] at hget
      exact h.placed k r hget
  · intro k r hget hused
    by_cases hk : k.2 < n k.1
    · obtain ⟨address, isUsed, hwritten, -, hiff⟩ := hscan.written _ _ hk
      rw [hget, Option.some.injEq] at hwritten
      rw [hwritten] at hused
      have hreached := hscan.reached _ _ hk
      rw [h.own] at hiff hreached
      exact ⟨client, result, hmem, hiff.mp hused, hreached⟩
    · rw [hscan.others k hk] at hget
      exact (h.seen k r hget hused).later

/-- `next_receive_address`. -/
theorem Kept.received (h : Kept hd keys events w) :
    Kept hd keys (events ++ [.received (w.nextReceiveAddress hd).1])
      (w.nextReceiveAddress hd).2 := by
  -- the address at an index is reachable if everything in front of it is marked
  -- as used
  have hreach : ∀ (index : Nat) address,
      keys.deriveAddress hd 0 index = .ok address →
      (∀ i < index, w.isUsed 0 i = true) → Reachable hd keys events address :=
    fun index address hderive hused => ⟨0,
      index, by decide, hderive, fun i hi => h.of_isUsed (hused i hi)⟩
  have hnew : ∀ index, (∀ i < index, w.isUsed 0 i = true) →
      Kept hd keys (events ++ [.received (w.record hd 0 index).1])
        (w.record hd 0 index).2 := by
    intro index hused
    refine (h.record (by decide)).idle fun address hout => ?_
    cases hrecord : (w.record hd 0 index).1 with
    | error e =>
      rw [hrecord] at hout
      exact hout.elim
    | ok a =>
      rw [hrecord] at hout
      have hsame : a = address := hout
      rw [← hsame]
      have hderive := record_ok hrecord
      rw [h.own] at hderive
      exact hreach index a hderive hused
  unfold AddressBook.nextReceiveAddress
  cases hfirst : w.firstUnused 0 w.externalTip with
  | none => exact hnew _ (used_below_tip hfirst)
  | some index =>
    dsimp only
    cases hget : w.addresses.get? (0, index) with
    | none => exact hnew index (used_before_first hfirst)
    | some r =>
      refine h.idle fun address hout => ?_
      have hsame : r.address = address := hout
      rw [← hsame]
      exact hreach index _ (h.placed _ _ hget).2 (used_before_first hfirst)

/-- `_next_change_index`. -/
theorem Kept.changeIndex (h : Kept hd keys events w) :
    Kept hd keys (events ++ [.changeIndex (w.nextChangeIndex hd).1])
      (w.nextChangeIndex hd).2 := by
  have hreach : ∀ (index : Nat) address,
      keys.deriveAddress hd 1 index = .ok address →
      (∀ i < index, w.isUsed 1 i = true) → Reachable hd keys events address :=
    fun index address hderive hused => ⟨1,
      index, by decide, hderive, fun i hi => h.of_isUsed (hused i hi)⟩
  unfold AddressBook.nextChangeIndex
  cases hfirst : w.firstUnused 1 w.internalTip with
  | none =>
    exact h.idle fun address hderive =>
      hreach _ address hderive (used_below_tip hfirst)
  | some index =>
    dsimp only
    cases hget : w.addresses.get? (1, index) with
    | some r =>
      exact h.idle fun address hderive =>
        hreach _ address hderive (used_before_first hfirst)
    | none =>
      refine (h.record (by decide)).idle fun address hout => ?_
      cases hrecord : (w.record hd 1 index).1 with
      | error e =>
        rw [hrecord] at hout
        exact hout.elim
      | ok a =>
        rw [hrecord] at hout
        exact hreach index address hout (used_before_first hfirst)

/-- **A run keeps what it should.** -/
theorem Run.kept (h : Run hd keys.book events w) : Kept hd keys events w := by
  induction h with
  | start => exact .start
  | step _ he ih =>
    cases he with
    | refresh hr => exact ih.refresh hr
    | received => exact ih.received
    | changeIndex => exact ih.changeIndex
    | balance client => exact ih.idle fun _ hout => hout.elim
    | utxos client => exact ih.idle fun _ hout => hout.elim

/-- What was seen can be seen as long as no history is lost. -/
theorem Seen.kept {client : ElectrumXClient}
    (h : Seen hd keys events change index) (hkept : HistoryKept events client) :
    HasHistory hd client keys change index ∧
    Reaches (HasHistory hd client keys change) gapLimit index := by
  obtain ⟨earlier, result, hmem, hhas, hreaches⟩ := h
  have hstill : ∀ i, HasHistory hd earlier keys change i →
      HasHistory hd client keys change i := by
    rintro i ⟨address, hderive, scriptHash, hhash, hne⟩
    exact ⟨address, hderive, scriptHash, hhash,
      hkept earlier result hmem scriptHash hne⟩
  exact ⟨hstill index hhas, hreaches.imp hstill⟩

/-- A refresh that returns marks the known addresses by their history. -/
theorem Kept.marked {client : ElectrumXClient} {fuel count : Nat}
    (h : Kept hd keys events w)
    (hr : w.refresh hd client fuel = some (.ok count, w'))
    (hkept : HistoryKept events client) :
    Marked hd client keys w' := by
  obtain ⟨n, hscan, hcomplete⟩ := refresh_refreshed hr
  have hown := h.own
  intro change index r hget
  by_cases hlt : index < n change
  · obtain ⟨address, isUsed, hwritten, -, hiff⟩ :=
      hscan.written change index hlt
    rw [hget, Option.some.injEq] at hwritten
    have hreached := hscan.reached change index hlt
    rw [hown] at hiff hreached
    rw [hwritten]
    exact hiff.trans ⟨fun hhas => ⟨hhas, hreached⟩, fun hboth => hboth.1⟩
  · rw [hscan.others (change, index) hlt] at hget
    have hgap : ¬ Reaches (HasHistory hd client keys change)
        gapLimit index := by
      intro hreaches
      have hdone := hcomplete count rfl change (h.placed _ _ hget).1
      rw [hown] at hdone
      exact hlt (hdone index hreaches)
    refine ⟨fun hused => ?_, fun hboth => absurd hboth.2 hgap⟩
    exact absurd ((h.seen _ _ hget hused).kept hkept).2 hgap

/-- A refresh that returns marks what was handed out before and has history. -/
theorem Kept.handedOutMarked {client : ElectrumXClient} {fuel count : Nat}
    (h : Kept hd keys events w)
    (hr : w.refresh hd client fuel = some (.ok count, w'))
    (hkept : HistoryKept events client) :
    HandedOutMarked hd client keys events w' := by
  obtain ⟨n, hscan, hcomplete⟩ := refresh_refreshed hr
  intro address hout hhas
  obtain ⟨change, index, hchange, hderive, hseen⟩ := h.handed address hout
  have hreaches : Reaches (HasHistory hd client keys change) gapLimit index :=
    reaches_of_all (by decide) fun i hi => ((hseen i hi).kept hkept).1
  have hdone := hcomplete count rfl change hchange
  rw [h.own] at hdone
  obtain ⟨a, isUsed, hget, hderive', hiff⟩ :=
    hscan.written change index (hdone index hreaches)
  rw [h.own] at hderive' hiff
  rw [hderive, Except.ok.injEq] at hderive'
  exact ⟨_, _, hget, hderive'.symm, hiff.mpr ⟨address, hderive, hhas⟩⟩

end Runs

/-! ## The queries -/

section Queries

variable {hd} {keys : HdWallet Secret} {events : List Event}
  {w : AddressBook Secret}

/-- The address of a used record has a script hash. -/
theorem Kept.hashed (h : Kept hd keys events w) :
    ∀ r ∈ w.usedRecords, scriptHashForAddress r.address = .ok r.scriptHash := by
  intro r hr
  obtain ⟨hmem, hused⟩ := List.mem_filter.mp hr
  obtain ⟨k, hget⟩ := OrderedMap.mem_values.mp hmem
  obtain ⟨client, result, -, ⟨address, hderive, scriptHash, hhash, -⟩, -⟩ :=
    h.seen k r hget hused
  have hplaced := (h.placed k r hget).2
  rw [hderive, Except.ok.injEq] at hplaced
  rw [AddressRecord.scriptHash, ← hplaced, hhash]
  rfl

/-- A gather asks the used addresses, in order. -/
theorem Kept.gather {α : Type} (h : Kept hd keys events w)
    (query : Bytes → Except PyErr α) :
    w.gather query = .ok (w.usedRecords.map fun r => query r.scriptHash) := by
  have hall : ∀ l : List AddressRecord,
      (∀ r ∈ l, scriptHashForAddress r.address = .ok r.scriptHash) →
      l.mapM (fun r => scriptHashForAddress r.address) =
        .ok (l.map AddressRecord.scriptHash) := by
    intro l
    induction l with
    | nil => intro _; rfl
    | cons r l ih =>
      intro hl
      rw [List.forall_mem_cons] at hl
      rw [List.mapM_cons, hl.1, ok_bind, ih hl.2]
      rfl
  rw [AddressBook.gather, hall _ h.hashed, ok_bind, pure_eq_ok, List.map_map]
  rfl

/-- A client that does not fail answers. -/
theorem answered_iff {α : Type} {client : ElectrumXClient}
    {scriptHash : Bytes} (a : α)
    (h : client.failure scriptHash = none) :
    client.answer scriptHash a = .ok a := by
  rw [ElectrumXClient.answer, h]

/-- The balance is exact just when no question fails. -/
theorem Kept.balance_exact_iff (h : Kept hd keys events w)
    (client : ElectrumXClient) :
    Exact w client (w.getBalance client) (knownBalance w client) ↔
    AllAnswered w client := by
  have hvalue : w.getBalance client =
      .ok ((w.usedRecords.map fun r =>
        AddressBook.addsBalance (client.getBalance r.scriptHash)).sum) := by
    rw [AddressBook.getBalance]
    split
    · next hnil => rw [hnil]; rfl
    · rw [h.gather, ok_bind, pure_eq_ok, List.map_map]
      rfl
  constructor
  · intro hexact
    exact (hexact _ hvalue).1
  · intro hall a ha
    rw [hvalue, Except.ok.injEq] at ha
    refine ⟨hall, ?_⟩
    rw [← ha, knownBalance]
    refine congrArg List.sum (List.map_congr_left fun r hr => ?_)
    rw [ElectrumXClient.getBalance, answered_iff _ (hall r hr)]
    rfl

/-- The UTXOs are exact just when no question fails. -/
theorem Kept.utxos_exact_iff (h : Kept hd keys events w)
    (client : ElectrumXClient) :
    Exact w client (w.getUtxos client) (knownUtxos w client) ↔
    AllAnswered w client := by
  have hvalue : w.getUtxos client =
      .ok (w.usedRecords.map fun r =>
        AddressBook.addsUtxos (client.getUtxos r.scriptHash)).flatten := by
    rw [AddressBook.getUtxos]
    split
    · next hnil => rw [hnil]; rfl
    · rw [h.gather, ok_bind, pure_eq_ok, List.map_map]
      rfl
  constructor
  · intro hexact
    exact (hexact _ hvalue).1
  · intro hall a ha
    rw [hvalue, Except.ok.injEq] at ha
    refine ⟨hall, ?_⟩
    rw [← ha, knownUtxos]
    refine congrArg List.flatten (List.map_congr_left fun r hr => ?_)
    rw [ElectrumXClient.getUtxos, answered_iff _ (hall r hr)]
    rfl

end Queries

/-! ## Main theorem -/

/-- **What a wallet recovers.** At any point of a run: a refresh that returns,
while no history is lost, marks every known address as used exactly if it has
history and no gap precedes it, and so every address handed out before that has
history by then; the balance and the UTXOs, each, raise or are exact exactly if
no question about a used address fails. -/
theorem addresses_recovered (hd : HdCurve Key Secret) (keys : HdWallet Secret)
    (events : List Event)
    (w : AddressBook Secret) (hrun : Run hd keys.book events w) :
    (∀ client fuel count w', w.refresh hd client fuel = some (.ok count, w') →
      HistoryKept events client →
      Marked hd client keys w' ∧ HandedOutMarked hd client keys events w') ∧
    (∀ client, Exact w client (w.getBalance client) (knownBalance w client) ↔
      AllAnswered w client) ∧
    ∀ client, Exact w client (w.getUtxos client) (knownUtxos w client) ↔
    AllAnswered w client := by
  have hkept := hrun.kept
  refine ⟨fun client fuel count w' hr hhistory => ?_, hkept.balance_exact_iff,
    hkept.utxos_exact_iff⟩
  exact ⟨hkept.marked hr hhistory, hkept.handedOutMarked hr hhistory⟩

/-! ## An address and a lost connection -/

/-- The keys at hand, and (`none`) the one at `0/1`. -/
abbrev ScanKey := Option SampleKey

namespace ScanKey

def format : ScanKey → Bytes
  | some k => k.format
  | none =>
    0x02 :: (leBytes 32
      0x995023FEF42BB89B5D933043AB001B36099E50206ED37C48A7E91E8D47E67827).reverse

def secretBytes : ScanKey → Bytes
  | some k => k.secretBytes
  | none =>
    (leBytes 32
      0x452EA5A82ED795C23B2EA58C422404C88CC347095BEEE6E861B4345856BFCC3C).reverse

def point : ScanKey → Point
  | some k => k.point
  | none =>
    (0x995023FEF42BB89B5D933043AB001B36099E50206ED37C48A7E91E8D47E67827,
     0x5DB8FA978A5A253DA48101BA1FDD76C55EC38108B98977D5556A085B29F11254)

/-- The key with this property. -/
def find {α : Type} [DecidableEq α] (f : ScanKey → α) (a : α) :
    Except PyErr ScanKey :=
  match (none :: SampleKey.all.map some).find? fun k => decide (f k = a) with
  | some k => .ok k
  | none => raises "not one of the keys"

end ScanKey

/-- What the libraries give on these keys. -/
def scanHd : HdCurve ScanKey ScanKey where
  ripemd160 b :=
    if beNat b =
        0xF8395FEABCA09172881F8EC3DF34D75D6B4956AB07F60A979F9CD1EB522B5D42 then
      (leBytes 20 0xF0A1F04E3AB9C045DB674A1E055495B241D775AE).reverse
    else (sampleHd id).ripemd160 b
  parse b := ScanKey.find ScanKey.format b
  format k _ := ScanKey.format k
  verify _ _ _ := .ok true
  sign _ digest := digest
  publicKey s := s
  hmacSha512 key message :=
    if beNat message =
        0x3CEF7D0F605A870430E020EAD0CAA5D9DB0045583B08F41F462C93280AA4C48F300000001 then
      (leBytes 32
        0x196E3ECDACF8C1426CA4A8112BC697670E0789718E5ED50C14215E5F86F9BA4A).reverse ++
        (leBytes 32
          0x7C1067E81A77AB0984889FE05DE917BEE94D21A948557C93D4ACB0A895C04553).reverse
    else (sampleHd id).hmacSha512 key message
  parseSecret b := ScanKey.find ScanKey.secretBytes b
  fromInt k := ScanKey.find (fun s => beNat (ScanKey.secretBytes s)) k
  secretBytes := ScanKey.secretBytes
  point := ScanKey.point
  fromPoint p := ScanKey.find ScanKey.point p
  combine := (sampleHd id).combine
  multiply := (sampleHd id).multiply

/-- The sample account is an extended key. -/
theorem sampleAccount_sized : sampleAccount.length = 78 := rfl

theorem sampleAccount_mainnet : networkOfXprv (xkeyPrefix sampleAccount) =
    some .mainnet := rfl

def scanWallet : HdWallet ScanKey :=
  ⟨.ok ⟨sampleAccount, .mainnet, some .account, sampleAccount_sized,
    sampleAccount_mainnet⟩⟩

/-- The address at `0/0`. -/
def firstAddress : String := "14jTm6TbByoqoKWbTGBv6QDkWjXTd4gQ3k"

def firstScriptHash : Bytes :=
  [230, 230, 95, 196, 242, 37, 70, 88, 20, 136, 98, 112, 109, 168, 90, 161, 137,
    192, 10, 160, 82, 155, 73, 129, 29, 150, 114, 206, 20, 122, 30, 196]

/-- The chain has paid 546 photons to `0/0`; the connection stands for questions
about it only. -/
def unsteady : ElectrumXClient where
  history h := if h = firstScriptHash then [⟨hex (List.replicate 32 5), 1⟩]
    else []
  balance h := if h = firstScriptHash then (546, 0) else (0, 0)
  utxos h := if h = firstScriptHash then [⟨hex (List.replicate 32 5), 0,
    546, 1⟩] else []
  failure h := if h = firstScriptHash then none
    else some (.other "connection lost")

/-- The same chain behind a lost connection. -/
def lost : ElectrumXClient :=
  { unsteady with failure := fun _ => some (.other "connection lost") }

/-- The scan before its first turn and before its second. -/
def scanZero : Scan := ⟨0, 0, 0, .empty⟩

def scanOne : Scan := scanZero.next 0 firstAddress true

/-- The wallet after a refresh that got as far as `0/1`. -/
def refreshedBook : AddressBook ScanKey where
  keys := scanWallet
  addresses := OrderedMap.empty.set (0, 0) ⟨firstAddress, 0, 0, true⟩
  externalTip := 0
  internalTip := 0

/-- The sample refresh, cut by a lost connection. -/
theorem refreshedBook_run :
    Run scanHd scanWallet.book [.refresh unsteady
      (.error (.other "connection lost"))] refreshedBook := by
  have hfirst : scanWallet.look scanHd unsteady 0 scanZero.index =
      .ok (firstAddress, true) := by decide +kernel
  have hsecond : scanWallet.look scanHd unsteady 0 scanOne.index =
      .error (.other "connection lost") := by
    decide +kernel
  have hzero : scanZero.consecutiveUnused < gapLimit := by decide
  have hone : scanOne.consecutiveUnused < gapLimit := by decide
  have hloop : scanWallet.scanLoop scanHd unsteady 0 2 scanZero =
      some (.error (.other "connection lost"), scanOne) :=
    (scanLoop_goes_on hzero hfirst).trans (scanLoop_raises hone hsecond)
  exact .step .start
    (.refresh (@refresh_raises _ _ _ _ scanWallet.book _ _ _ hloop))

theorem refreshedBook_used :
    refreshedBook.usedRecords = [⟨firstAddress, 0, 0, true⟩] := rfl

theorem firstAddress_hashed : (⟨firstAddress, 0, 0,
    true⟩ : AddressRecord).scriptHash = firstScriptHash := by
  decide +kernel

/-- Over the connection that stands the balance is exact. -/
theorem addresses_recovered_unsteady :
    Exact refreshedBook unsteady (refreshedBook.getBalance unsteady)
      (knownBalance refreshedBook unsteady) := by
  refine ((addresses_recovered scanHd scanWallet _ _ refreshedBook_run).2.1
    unsteady).mpr fun r hr => ?_
  rw [refreshedBook_used, List.mem_singleton] at hr
  rw [hr, firstAddress_hashed]
  rfl

/-- **A failed query counts as zero**: 546 photons are on a used known address,
and the balance is 0. -/
theorem balance_of_lost : ∃ events w, Run scanHd scanWallet.book events w ∧
    w.getBalance lost = .ok 0 ∧
    knownBalance w lost = 546 ∧ ¬ Exact w lost (w.getBalance lost)
      (knownBalance w lost) := by
  have hvalue : refreshedBook.getBalance lost = .ok 0 := by decide +kernel
  have hknown : knownBalance refreshedBook lost = 546 := by
    rw [knownBalance, refreshedBook_used, List.map_singleton,
      firstAddress_hashed]
    rfl
  refine ⟨_, refreshedBook, refreshedBook_run, hvalue, hknown, fun hexact => ?_⟩
  have hzero := (hexact 0 hvalue).2
  rw [hknown] at hzero
  exact absurd hzero (by decide)

end Pyrxd.Hd
