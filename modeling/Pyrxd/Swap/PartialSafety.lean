import Pyrxd.Swap.Partial
import Pyrxd.Tx.RoundTrip
import Pyrxd.Tx.PreimageSpec

/-!
# What the taker of an offer signs

A completed swap should hold the maker's output, the taker's output and change,
and nothing else. `accept_offer` keeps every output the maker put into the
partial transaction: one behind the first is paid for out of the taker's funding
like any other, and the maker's `SINGLE` signature says nothing about it. Inputs
behind the first have no known value, and balancing refuses them.
-/

namespace Pyrxd.Swap

open Pyrxd.Lib Pyrxd.Tx

/-! ## Refs and assets on the wire -/

/-- Hex digits are in lower case. -/
theorem isLowerHex_hexDigit : ∀ n < 16, isLowerHex (hexDigit n) =
    true := by decide

theorem all_hexChars (b : Bytes) : (hexChars b).all isLowerHex = true := by
  induction b with
  | nil => rfl
  | cons x b ih =>
    rw [hexChars, List.all_cons, List.all_cons, ih, Bool.and_true,
      isLowerHex_hexDigit _ (by have := x.toNat_lt; omega),
        isLowerHex_hexDigit _ (by omega)]
    rfl

/-- Thirty-two bytes in hex are a txid. -/
theorem isTxid_hex {b : Bytes} (h : b.length = 32) : isTxid (hex b) = true := by
  have hlen : (hexChars b).length = 64 := by rw [length_hexChars, h]
  have htake : (hexChars b).take 64 = hexChars b :=
    List.take_of_length_le (by omega)
  have hdrop : (hexChars b).drop 64 = [] := List.drop_of_length_le (by omega)
  rw [isTxid, hex, String.toList_ofList, htake, hdrop, hlen, all_hexChars]
  rfl

/-- A ref that some 36 bytes spell. -/
def GlyphRef.Spelled (r : GlyphRef) (data : Bytes) : Prop :=
  GlyphRef.fromBytes data = .ok r

/-- What a spelled reference is read as. -/
theorem GlyphRef.fromBytes_ok {r : GlyphRef} {data : Bytes}
    (h : r.Spelled data) :
    data.length = 36 ∧ r.txid = hex (data.take 32).reverse ∧
    r.vout = leNat (data.drop 32) := by
  unfold GlyphRef.Spelled GlyphRef.fromBytes at h
  obtain ⟨hlen, h⟩ := refuseIf_bind_ok.mp h
  rw [GlyphRef.make, dif_pos (isTxid_hex (by rw [List.length_reverse, List.length_take]; omega))] at h
  split at h
  · cases h
    exact ⟨not_not.mp hlen, rfl, rfl⟩
  · cases h

theorem GlyphRef.Spelled.toBytes {r : GlyphRef} {data : Bytes}
    (h : r.Spelled data) :
    r.toBytes = .ok data := by
  obtain ⟨hlen, htxid, hvout⟩ := GlyphRef.fromBytes_ok h
  have hdrop : (data.drop 32).length = 4 := by rw [List.length_drop]; omega
  rw [GlyphRef.toBytes, htxid, hvout, txidBytes, fromHex_hex]
  simp only
  rw [ok_bind, toBytesLe_leNat hdrop, ok_bind, List.reverse_reverse,
    List.take_append_drop]
  rfl

/-- What an asset holds of one token. -/
def Asset.units (ref : GlyphRef) (a : Asset) : Int :=
  if a.ref = some ref then a.amount else 0

/-- An asset whose ref, if it has one, some bytes spell. -/
def Asset.Spelled (a : Asset) : Prop := ∀ r, a.ref = some r →
  ∃ data, r.Spelled data

/-- An asset has the fields it was made of. -/
theorem Asset.make_ok {kind : AssetKind} {amount : Int}
    {ref : Option GlyphRef} {a : Asset}
    (h : Asset.make kind amount ref = .ok a) :
    a.kind = kind ∧ a.amount = amount ∧ a.ref = ref := by
  unfold Asset.make at h
  split at h
  · split at h
    · cases h
      exact ⟨rfl, rfl, rfl⟩
    · cases kind <;> cases h
  · cases h

/-- The last steps of `_asset_of` give back the asset they started from. -/
theorem Asset.make_self (a : Asset) :
    Asset.make a.kind a.amount a.ref = .ok a := by
  rw [Asset.make, dif_pos a.positive, dif_pos a.refOfKind]

/-- The asset of an output has its value, and a spelled reference. -/
theorem assetOf_ok {v : Int} {script : Bytes} {a : Asset}
    (h : assetOf v script = .ok a) :
    a.amount = v ∧ a.Spelled := by
  unfold assetOf at h
  split at h
  · obtain ⟨ref, href, h⟩ := bind_ok.mp h
    obtain ⟨-, hamount, haref⟩ := Asset.make_ok h
    refine ⟨hamount, ?_⟩
    intro r hr
    rw [haref] at hr
    cases hr
    exact ⟨_, (refuseIf_bind_ok.mp href).2⟩
  · split at h
    · obtain ⟨-, hamount, haref⟩ := Asset.make_ok h
      refine ⟨hamount, ?_⟩
      intro r hr
      rw [haref] at hr
      cases hr
    · cases h

section Scripts

variable {pkh data : Bytes}

/-- A P2PKH lock is one, and no FT. -/
theorem isP2pkh_lock (h : pkh.length = 20) :
    isP2pkh (p2pkhHead ++ pkh ++ p2pkhTail) = true ∧
    isFtScript (p2pkhHead ++ pkh ++ p2pkhTail) = false := by
  have hlen : (p2pkhHead ++ pkh ++ p2pkhTail).length = 25 := by
    rw [List.length_append, List.length_append, h]
    rfl
  have htail : (p2pkhHead ++ pkh ++ p2pkhTail).drop 23 = p2pkhTail :=
    List.drop_left' (by rw [List.length_append, h]; rfl)
  refine ⟨?_, ?_⟩
  · have hhead : (p2pkhHead ++ pkh ++ p2pkhTail).take 3 = p2pkhHead := rfl
    rw [isP2pkh, hlen, htail, hhead]
    rfl
  · rw [isFtScript, hlen]
    rfl

/-- The fields of an FT locking script stand where the regular expression looks
for them. -/
theorem isFtScript_lock (h : pkh.length = 20) (hdata : data.length = 36) :
    isFtScript (p2pkhHead ++ pkh ++ p2pkhTail ++
      (ftHead ++ data ++ ftTail)) = true ∧
      ((p2pkhHead ++ pkh ++ p2pkhTail ++
        (ftHead ++ data ++ ftTail)).drop 27).take 36 = data := by
  have hlock : (p2pkhHead ++ pkh ++ p2pkhTail).length = 25 := by
    rw [List.length_append, List.length_append, h]
    rfl
  have hbody : (ftHead ++ data ++ ftTail).length = 50 := by
    rw [List.length_append, List.length_append, hdata]
    rfl
  have h25 : (p2pkhHead ++ pkh ++ p2pkhTail ++
    (ftHead ++ data ++ ftTail)).drop 25 =
      ftHead ++ data ++ ftTail := List.drop_left' hlock
  have h23 : (p2pkhHead ++ pkh ++ p2pkhTail ++
      (ftHead ++ data ++ ftTail)).drop 23 =
      p2pkhTail ++ (ftHead ++ data ++ ftTail) := by
    rw [List.append_assoc]
    exact List.drop_left' (by rw [List.length_append, h]; rfl)
  have h27 : (p2pkhHead ++ pkh ++ p2pkhTail ++
      (ftHead ++ data ++ ftTail)).drop 27 = data ++ ftTail := by
    rw [show 27 = 25 + 2 from rfl, ← List.drop_drop, h25, List.append_assoc]
    exact List.drop_left' rfl
  have h63 : (p2pkhHead ++ pkh ++ p2pkhTail ++
      (ftHead ++ data ++ ftTail)).drop 63 = ftTail := by
    rw [show 63 = 27 + 36 from rfl, ← List.drop_drop, h27]
    exact List.drop_left' hdata
  refine ⟨?_, ?_⟩
  · have h3 : (p2pkhHead ++ pkh ++ p2pkhTail ++
        (ftHead ++ data ++ ftTail)).take 3 = p2pkhHead := rfl
    have htail : (p2pkhTail ++ (ftHead ++ data ++ ftTail)).take 2 =
        p2pkhTail := rfl
    have hhead : (ftHead ++ data ++ ftTail).take 2 = ftHead := rfl
    rw [isFtScript, h23, h25, h63, h3, htail, hhead,
      List.length_append, hlock, hbody]
    rfl
  · rw [h27]
    exact List.take_left' hdata

end Scripts

/-- **An output built for an asset carries it.** -/
theorem assetOf_buildAssetOutput {a : Asset} {pkh : Bytes}
    {o : TransactionOutput} (ha : a.Spelled)
    (h : buildAssetOutput a pkh = .ok o) :
    o.satoshis = some a.amount ∧ assetOf a.amount o.lockingScript = .ok a := by
  have hself := Asset.make_self a
  unfold buildAssetOutput at h
  -- each kind of output is classified as itself
  cases hkind : a.kind with
  | rxd =>
    rw [hkind] at h hself
    have hnone : a.ref = none := by
      rw [Option.eq_none_iff_forall_ne_some]
      intro r hr
      have := a.refOfKind.mp (by rw [hr]; rfl)
      rw [hkind] at this
      cases this
    obtain ⟨script, hscript, h⟩ := bind_ok.mp h
    obtain ⟨hlen, hscript⟩ := refuseIf_bind_ok.mp hscript
    cases hscript
    cases h
    obtain ⟨hp, hft⟩ := isP2pkh_lock (not_not.mp hlen)
    rw [hnone] at hself
    refine ⟨rfl, ?_⟩
    rw [assetOf, if_neg (by rw [hft]; nofun), if_pos hp]
    exact hself
  | ft =>
    obtain ⟨r, hr⟩ := Option.isSome_iff_exists.mp (a.refOfKind.mpr hkind)
    obtain ⟨data, hdata⟩ := ha r hr
    rw [hkind, hr] at h hself
    obtain ⟨script, hscript, h⟩ := bind_ok.mp h
    obtain ⟨hlen, hscript⟩ := refuseIf_bind_ok.mp hscript
    rw [hdata.toBytes, ok_bind] at hscript
    simp only at hscript
    split at hscript
    · cases hscript
    · rename_i hne
      cases hscript
      cases h
      obtain ⟨hft, href⟩ :=
        isFtScript_lock (not_not.mp hlen) (GlyphRef.fromBytes_ok hdata).1
      refine ⟨rfl, ?_⟩
      have hhead : ((p2pkhHead ++ pkh ++ p2pkhTail ++
          (ftHead ++ data ++ ftTail)).drop 25).take 2 = ftHead := by
        rw [isFtScript] at hft
        simp only [Bool.and_eq_true, beq_iff_eq] at hft
        exact hft.1.2
      have hextract : extractRefFromFtScript
          (p2pkhHead ++ pkh ++ p2pkhTail ++
            (ftHead ++ data ++ ftTail)) = .ok r := by
        rw [extractRefFromFtScript, refuseIf_bind_ok, href]
        exact ⟨not_or.mpr ⟨hne, not_not.mpr hhead⟩, hdata⟩
      rw [assetOf, if_pos hft, hextract, ok_bind]
      exact hself

/-! ## Sums -/

/-- The photons of an output, and the units of one token it holds. -/
def photons (o : TransactionOutput) : Int := o.satoshis.getD 0

def unitsOf (ref : GlyphRef) (o : TransactionOutput) : Int :=
  match assetOf (photons o) o.lockingScript with
  | .ok a => a.units ref
  | .error _ => 0

def total (os : List TransactionOutput) : Int := (os.map photons).sum

def units (ref : GlyphRef) (os : List TransactionOutput) : Int :=
  (os.map (unitsOf ref)).sum

@[simp] theorem total_nil : total [] = 0 := rfl

@[simp] theorem total_cons (o : TransactionOutput)
    (os : List TransactionOutput) :
    total (o :: os) = photons o + total os := rfl

@[simp] theorem total_append (os ps : List TransactionOutput) :
    total (os ++ ps) = total os + total ps := by
  rw [total, total, total, List.map_append, List.sum_append]

@[simp] theorem units_nil (ref : GlyphRef) : units ref [] = 0 := rfl

@[simp] theorem units_cons (ref : GlyphRef) (o : TransactionOutput)
    (os : List TransactionOutput) :
    units ref (o :: os) = unitsOf ref o + units ref os := rfl

@[simp] theorem units_append (ref : GlyphRef) (os ps : List TransactionOutput) :
    units ref (os ++ ps) = units ref os + units ref ps := by
  rw [units, units, units, List.map_append, List.sum_append]

/-- An output's units are its asset's. -/
theorem unitsOf_eq {ref : GlyphRef} {o : TransactionOutput} {a : Asset}
    (h : assetOf (photons o) o.lockingScript = .ok a) :
    unitsOf ref o = a.units ref := by
  rw [unitsOf, h]

/-- A built output holds what its asset does. -/
theorem Asset.Spelled.built {a : Asset} {pkh : Bytes} {o : TransactionOutput}
    (ha : a.Spelled)
    (h : buildAssetOutput a pkh = .ok o) : photons o = a.amount ∧
    ∀ ref, unitsOf ref o = a.units ref := by
  obtain ⟨hsat, hasset⟩ := assetOf_buildAssetOutput ha h
  have hphotons : photons o = a.amount := by
    rw [photons, hsat]
    rfl
  refine ⟨hphotons, fun ref => unitsOf_eq ?_⟩
  rw [hphotons]
  exact hasset

/-- The sums of one side count the outputs `os`, and every ref in the tally is
spelled. -/
structure Counts (s : Sums) (os : List TransactionOutput) : Prop where
  total : s.total = total os
  units : ∀ ref, s.ft.count ref = units ref os
  spelled : ∀ ref ∈ s.ft.keys, ∃ data, ref.Spelled data

theorem Counts.nil : Counts ⟨[], 0⟩ [] := ⟨rfl, fun _ => rfl, nofun⟩

/-- One turn of either loop. -/
theorem Counts.add {s s' : Sums} {os : List TransactionOutput} {v : Int}
    {script : Bytes}
    (hs : Counts s os) (h : s.add v script = .ok s') :
    Counts s' (os ++ [⟨script, some v⟩]) := by
  unfold Sums.add at h
  obtain ⟨a, ha, h⟩ := bind_ok.mp h
  obtain ⟨-, hspelled⟩ := assetOf_ok ha
  have hunits : ∀ ref, unitsOf ref ⟨script, some v⟩ = a.units ref :=
    fun ref => unitsOf_eq ha
  have htotal : s.total + v = Swap.total (os ++ [⟨script, some v⟩]) := by
    rw [total_append, total_cons, total_nil, Int.add_zero, hs.total]
    rfl
  cases hkind : a.kind with
  | rxd =>
    have hnone : ∀ ref, a.units ref = 0 := by
      intro ref
      rw [Asset.units, if_neg]
      intro hr
      have := a.refOfKind.mp (by rw [hr]; rfl)
      rw [hkind] at this
      cases this
    rw [hkind] at h
    simp only [pure_eq_ok] at h
    cases h
    refine ⟨htotal, ?_, hs.spelled⟩
    · intro ref
      rw [units_append, units_cons, hunits, hnone, ← hs.units ref, units_nil]
      show s.ft.count ref = _
      omega
  | ft =>
    obtain ⟨r, hr⟩ := Option.isSome_iff_exists.mp (a.refOfKind.mpr hkind)
    rw [hkind, hr] at h
    simp only [pure_eq_ok] at h
    cases h
    refine ⟨htotal, ?_, ?_⟩
    · intro ref
      show (s.ft.add r a.amount).count ref = _
      rw [units_append, units_cons, hunits, Tally.count_add, hs.units ref,
        units_nil, Asset.units, hr]
      by_cases hrr : ref = r
      · rw [if_pos hrr, if_pos (congrArg some hrr.symm)]
        omega
      · rw [if_neg hrr, if_neg (fun he => hrr (Option.some.inj he).symm)]
        omega
    · intro ref hmem
      rcases Tally.mem_keys_set hmem with h | h
      · rw [h]
        exact hspelled r hr
      · exact hs.spelled ref h

/-- The output an input spends, as far as it is known. -/
def spent (i : TransactionInput) : TransactionOutput :=
  ⟨i.lockingScript.getD [], i.satoshis⟩

/-- The input loop counts what is spent. -/
theorem sumInputs_ok {l : List TransactionInput} : ∀ {s s' : Sums} {os : List TransactionOutput},
    Counts s os → sumInputs s l = .ok s' →
      Counts s' (os ++ l.map spent) ∧ ∀ i ∈ l, i.satoshis ≠ none := by
  induction l with
  | nil =>
    intro s s' os hs h
    cases h
    rw [List.map_nil, List.append_nil]
    exact ⟨hs, nofun⟩
  | cons i l ih =>
    intro s s' os hs h
    rw [sumInputs] at h
    split at h
    · rename_i v script hv hscript
      obtain ⟨t, ht, h⟩ := bind_ok.mp h
      have hspent : spent i = ⟨script, some v⟩ := by rw [spent, hv, hscript]; rfl
      obtain ⟨hcounts, hknown⟩ := ih (hs.add ht) h
      rw [← hspent, List.append_assoc] at hcounts
      refine ⟨hcounts, ?_⟩
      intro j hj
      rcases List.mem_cons.mp hj with rfl | hj
      · rw [hv]
        nofun
      · exact hknown j hj
    · cases h

/-- The output loop counts what is paid. -/
theorem sumOutputs_ok {l : List TransactionOutput} : ∀ {s s' : Sums}
    {os : List TransactionOutput},
    Counts s os → sumOutputs s l = .ok s' → Counts s' (os ++ l) := by
  induction l with
  | nil =>
    intro s s' os hs h
    cases h
    rw [List.append_nil]
    exact hs
  | cons o l ih =>
    intro s s' os hs h
    rw [sumOutputs] at h
    split at h
    · rename_i v hv
      obtain ⟨t, ht, h⟩ := bind_ok.mp h
      have ho : o = ⟨o.lockingScript, some v⟩ := by rw [← hv]
      have hcounts := ih (hs.add ht) h
      rw [← ho, List.append_assoc] at hcounts
      exact hcounts
    · cases h

/-! ## Change -/

/-- Outputs of one kind, all to one holder. -/
def PaysTo (kind : AssetKind) (pkh : Bytes)
    (os : List TransactionOutput) : Prop :=
  ∀ o ∈ os, ∃ a : Asset, a.kind = kind ∧ buildAssetOutput a pkh = .ok o

/-- The change loop returns the surplus of each token. -/
theorem ftChange_ok {pkh : Bytes} {ftIn ftOut : Tally GlyphRef}
    {refs : List GlyphRef} :
    ∀ {os : List TransactionOutput} {added : Int}, refs.Nodup →
      (∀ ref ∈ refs, ∃ data, ref.Spelled data) →
        ftChange pkh ftIn ftOut refs = .ok (os, added) →
      PaysTo .ft pkh os ∧ total os = added ∧
        ∀ ref, units ref os = if ref ∈
          refs then ftIn.count ref - ftOut.count ref else 0 := by
  induction refs with
  | nil =>
    intro os added _ _ h
    cases h
    exact ⟨nofun, rfl, fun ref => (if_neg (List.not_mem_nil)).symm⟩
  | cons r refs ih =>
    intro os added hnodup hspelled h
    obtain ⟨hr, hnodup⟩ := List.nodup_cons.mp hnodup
    have hspelled' : ∀ ref ∈ refs, ∃ data, ref.Spelled data :=
      fun ref href => hspelled ref (List.mem_cons_of_mem _ href)
    -- at the head only `r` gains its surplus; elsewhere the tail decides
    have hsplit : ∀ (ref : GlyphRef) (x : Int), x =
        (if ref = r then ftIn.count r - ftOut.count r else 0) →
        x + (if ref ∈ refs then ftIn.count ref - ftOut.count ref else 0) =
          if ref ∈ r :: refs then ftIn.count ref - ftOut.count ref else 0 := by
      intro ref x hx
      by_cases href : ref = r
      · rw [hx, href, if_pos rfl, if_neg hr, if_pos List.mem_cons_self]
        omega
      · have hiff : ref ∈ r :: refs ↔
            ref ∈ refs := by rw [List.mem_cons, or_iff_right href]
        rw [hx, if_neg href, Int.zero_add]
        by_cases hm : ref ∈ refs
        · rw [if_pos hm, if_pos (hiff.mpr hm)]
        · rw [if_neg hm, if_neg (fun hc => hm (hiff.mp hc))]
    rw [ftChange] at h
    simp only at h
    split at h
    · cases h
    · rename_i hneg
      split at h
      · obtain ⟨a, ha, h⟩ := bind_ok.mp h
        obtain ⟨o, ho, h⟩ := bind_ok.mp h
        obtain ⟨⟨os', added'⟩, hrest, h⟩ := bind_ok.mp h
        cases h
        obtain ⟨hkind, hamount, haref⟩ := Asset.make_ok ha
        obtain ⟨hpays, htotal, hunits⟩ := ih hnodup hspelled' hrest
        have haspelled : a.Spelled := by
          intro ref href
          rw [haref] at href
          cases href
          exact hspelled r List.mem_cons_self
        obtain ⟨hphotons, hone⟩ := haspelled.built ho
        refine ⟨?_, ?_, ?_⟩
        · intro q hq
          rcases List.mem_cons.mp hq with rfl | hq
          · exact ⟨a, hkind, ho⟩
          · exact hpays q hq
        · rw [total_cons, hphotons, hamount, htotal]
        · intro ref
          rw [units_cons, hunits, hone]
          apply hsplit
          rw [Asset.units, haref, hamount]
          by_cases href : ref = r
          · rw [if_pos href, if_pos (congrArg some href.symm)]
          · rw [if_neg href, if_neg (fun he => href (Option.some.inj he).symm)]
      · rename_i hpos
        obtain ⟨hpays, htotal, hunits⟩ := ih hnodup hspelled' h
        refine ⟨hpays, htotal, ?_⟩
        intro ref
        have hzero : ftIn.count r - ftOut.count r = 0 := by omega
        rw [hunits, ← hsplit ref 0 (by rw [hzero, ite_self]), Int.zero_add]

/-- What balancing adds, and what it leaves for the fee. -/
structure Balance (spends outputs : List TransactionOutput)
    (changePkh : Bytes) (fee : Int)
    (outputs' : List TransactionOutput) : Prop where
  change : ∃ ft rxd, outputs' = outputs ++ ft ++ rxd ∧ PaysTo .ft changePkh ft ∧
    PaysTo .rxd changePkh rxd ∧ rxd.length ≤ 1 ∧ ∀ ref, units ref rxd = 0
  atLeast : fee ≤ total spends - total outputs'
  below : total spends - total outputs' < fee + dustPhotons
  conserved : ∀ ref, units ref spends = units ref outputs'

theorem balanceAndAddChange_ok {Secret : Type} {order : SetOrder}
    {d d' : Draft Secret} {pkh : Bytes} {fee : Int}
    (h : balanceAndAddChange order d pkh fee = .ok d') :
    (∃ outputs, d' = { d with outputs := outputs } ∧
      Balance (d.tx.inputs.map spent) d.outputs pkh fee outputs) ∧
    ∀ i ∈ d.tx.inputs, i.satoshis ≠ none := by
  unfold balanceAndAddChange at h
  obtain ⟨-, h⟩ := refuseIf_bind_ok.mp h
  obtain ⟨sIn, hin, h⟩ := bind_ok.mp h
  obtain ⟨sOut, hout, h⟩ := bind_ok.mp h
  simp only at h
  obtain ⟨⟨ft, added⟩, hft, h⟩ := bind_ok.mp h
  dsimp only at h
  obtain ⟨hfee, h⟩ := refuseIf_bind_ok.mp h
  obtain ⟨cin, hknown⟩ := sumInputs_ok Counts.nil hin
  have cout := sumOutputs_ok Counts.nil hout
  rw [List.nil_append] at cin cout
  have hperm := order.perm _ (List.nodup_dedup (sIn.ft.keys ++ sOut.ft.keys))
  have hmem : ∀ ref, ref ∈ order.order (sIn.ft.keys ++ sOut.ft.keys).dedup ↔
      ref ∈ sIn.ft.keys ∨ ref ∈ sOut.ft.keys := by
    intro ref
    rw [hperm.mem_iff, List.mem_dedup, List.mem_append]
  obtain ⟨hpays, htotal, hunits⟩ :=
      ftChange_ok (hperm.nodup_iff.mpr (List.nodup_dedup _)) (by
    intro ref href
    rcases (hmem ref).mp href with href | href
    · exact cin.spelled ref href
    · exact cout.spelled ref href) hft
  -- a ref of neither side has no units on either
  have hsurplus : ∀ ref, units ref ft =
      units ref (d.tx.inputs.map spent) - units ref d.outputs := by
    intro ref
    rw [hunits, cin.units, cout.units]
    by_cases hm : ref ∈ order.order (sIn.ft.keys ++ sOut.ft.keys).dedup
    · rw [if_pos hm]
      rfl
    · obtain ⟨h1, h2⟩ := not_or.mp (fun hc => hm ((hmem ref).mpr hc))
      rw [if_neg hm, ← cout.units, Tally.count_of_not_mem h2]
      have : units ref (d.tx.inputs.map spent) = 0 :=
        (cin.units ref).symm.trans (Tally.count_of_not_mem h1)
      rw [this]
      rfl
  have hin_total : sIn.total = total (d.tx.inputs.map spent) := cin.total
  have hout_total : sOut.total = total d.outputs := cout.total
  refine ⟨?_, hknown⟩
  split at h
  · rename_i hdust
    obtain ⟨script, hscript, h⟩ := bind_ok.mp h
    cases h
    have hpos : 0 < sIn.total - (sOut.total + added) - fee :=
      lt_of_lt_of_le (by decide) hdust
    have hone : photons ⟨script,
      some (sIn.total - (sOut.total + added) - fee)⟩ =
        sIn.total - (sOut.total + added) - fee := rfl
    have hbuilt : buildAssetOutput ⟨.rxd, _, none, hpos, ⟨nofun, nofun⟩⟩ pkh =
        .ok ⟨script, some (sIn.total - (sOut.total + added) - fee)⟩ := by
      rw [buildAssetOutput]
      simp only
      rw [hscript]
      rfl
    have hnone : ∀ ref, unitsOf ref ⟨script,
        some (sIn.total - (sOut.total + added) - fee)⟩ = 0 := by
      intro ref
      rw [(Asset.Spelled.built (fun r hr => by cases hr) hbuilt).2]
      rfl
    refine ⟨_, rfl, ⟨ft, [_], rfl, hpays, ?_, Nat.le_refl 1, ?_⟩, ?_, ?_, ?_⟩
    · intro o ho
      rw [List.mem_singleton.mp ho]
      exact ⟨_, rfl, hbuilt⟩
    · intro ref
      rw [units_cons, units_nil, hnone]
      rfl
    · rw [total_append, total_append, total_cons, total_nil, hone]
      omega
    · rw [total_append, total_append, total_cons, total_nil, hone, dustPhotons]
      omega
    · intro ref
      rw [units_append, units_append, units_cons, units_nil, hnone, hsurplus]
      omega
  · rename_i hdust
    cases h
    refine ⟨_, rfl, ⟨ft, [], (List.append_nil _).symm, hpays, nofun,
      Nat.zero_le 1, fun _ => rfl⟩, ?_, ?_, ?_⟩
    · rw [total_append]
      omega
    · rw [total_append]
      omega
    · intro ref
      rw [units_append, hsurplus]
      omega

/-! ## Signing and reading an offer -/

section Accept

variable {Key Secret : Type} {curve : Curve Key Secret}

/-- The outpoint an input spends. -/
def outpoint (i : TransactionInput) : Option String × Int :=
  (i.sourceTxid, i.sourceOutputIndex)

def outpoints (l : List (DraftInput Secret)) : List (Option String × Int) :=
  l.map fun t => outpoint t.input

theorem signTurn_ok {d : Draft Secret} {i : Nat} {t t' : DraftInput Secret}
    (h : signTurn curve d i t = .ok t') :
    outpoint t'.input = outpoint t.input := by
  unfold signTurn at h
  split at h
  · cases h
    rfl
  · split at h
    · cases h
    · obtain ⟨script, -, h⟩ := bind_ok.mp h
      cases h
      rfl

/-- Signing leaves every outpoint as it was. -/
theorem signFrom_ok {d : Draft Secret} {rest : List (DraftInput Secret)} :
    ∀ {done l : List (DraftInput Secret)}, signFrom curve d done rest = .ok l →
      outpoints l = outpoints (done ++ rest) := by
  induction rest with
  | nil =>
    intro done l h
    cases h
    rw [List.append_nil]
  | cons t rest ih =>
    intro done l h
    rw [signFrom] at h
    obtain ⟨t', ht, h⟩ := bind_ok.mp h
    rw [ih h]
    simp only [outpoints, List.append_assoc, List.singleton_append,
      List.map_append, List.map_cons, signTurn_ok ht]

/-- Signing keeps outputs and outpoints. -/
theorem sign_ok {d d' : Draft Secret} (h : sign curve d = .ok d') :
    d'.outputs = d.outputs ∧ outpoints d'.inputs = outpoints d.inputs := by
  unfold sign at h
  split at h
  · cases h
  · obtain ⟨inputs, hin, h⟩ := bind_ok.mp h
    cases h
    exact ⟨rfl, signFrom_ok hin⟩

/-- Verification restores a flag and changes nothing else. -/
theorem verifyOwnerSignature_ok {d d' : Draft Secret}
    (h : verifyOwnerSignature curve d = .ok d') :
    ∃ flag, d' = { d with inputs := setSighash flag d.inputs } := by
  unfold verifyOwnerSignature at h
  obtain ⟨inp, -, h⟩ := bind_ok.mp h
  split at h
  · obtain ⟨⟨signed, publicKey⟩, -, h⟩ := bind_ok.mp h
    obtain ⟨-, h⟩ := refuseIf_bind_ok.mp h
    obtain ⟨key, -, h⟩ := bind_ok.mp h
    obtain ⟨owner, -, h⟩ := bind_ok.mp h
    obtain ⟨-, h⟩ := refuseIf_bind_ok.mp h
    obtain ⟨message, -, h⟩ := bind_ok.mp h
    obtain ⟨valid, -, h⟩ := bind_ok.mp h
    obtain ⟨-, h⟩ := refuseIf_bind_ok.mp h
    cases h
    exact ⟨_, rfl⟩
  · cases h

/-- No parsed input knows what it spends. -/
theorem parseTxHex_satoshis {s : String} {p : Transaction}
    (h : parseTxHex s = .ok (some p)) :
    ∀ i ∈ p.inputs, i.satoshis = none := by
  unfold parseTxHex at h
  split at h
  · obtain ⟨w, -, rfl⟩ := fromHex_some.mp (Except.ok.inj h)
    intro i hi
    obtain ⟨v, -, rfl⟩ := List.mem_map.mp hi
    rfl
  · cases h

/-- An offer that was opened: its partial transaction, and the output its first
input spends. -/
structure Opened (offer : SwapOffer) (d : Draft Secret) where
  parsed : Transaction
  makerIn : TransactionInput
  moreInputs : List TransactionInput
  receive : TransactionOutput
  moreOutputs : List TransactionOutput
  given : TransactionOutput
  ofHex : parseTxHex offer.partialTxHex = .ok (some parsed)
  ofInputs : parsed.inputs = makerIn :: moreInputs
  ofOutputs : parsed.outputs = receive :: moreOutputs
  draftInputs : d.inputs = ⟨{ makerIn with
    satoshis := given.satoshis, lockingScript := some given.lockingScript }, none⟩ :: moreInputs.map (⟨·, none⟩)
  draftOutputs : d.outputs = parsed.outputs
  ofGive : assetOf (photons given) given.lockingScript = .ok offer.terms.give
  ofReceive : assetOf (photons receive) receive.lockingScript =
    .ok offer.terms.receive

/-- What an opened offer gives and spends. -/
theorem openOffer_ok {offer : SwapOffer} {d : Draft Secret} {a : Asset}
    (h : openOffer offer = .ok (d, a)) :
    a = offer.terms.give ∧ Nonempty (Opened offer d) := by
  unfold openOffer at h
  obtain ⟨parsed, hparsed, h⟩ := bind_ok.mp h
  obtain ⟨source, -, h⟩ := bind_ok.mp h
  split at h
  · rename_i parsed giveSource _
    split at h
    · rename_i makerIn moreInputs receive moreOutputs hin hout
      obtain ⟨sourceTxid, -, h⟩ := bind_ok.mp h
      obtain ⟨-, h⟩ := refuseIf_bind_ok.mp h
      split at h
      · cases h
      · rename_i given _
        split at h
        · rename_i v w hv hw
          obtain ⟨realGive, hgive, h⟩ := bind_ok.mp h
          obtain ⟨hgiveEq, h⟩ := refuseIf_bind_ok.mp h
          obtain ⟨realReceive, hreceive, h⟩ := bind_ok.mp h
          obtain ⟨hreceiveEq, h⟩ := refuseIf_bind_ok.mp h
          cases h
          have hgiven : photons given = v := by rw [photons, hv]; rfl
          have hreceived : photons receive = w := by rw [photons, hw]; rfl
          refine ⟨not_not.mp hgiveEq, ⟨⟨parsed, makerIn, moreInputs, receive,
            moreOutputs, given, hparsed, hin, hout, ?_, rfl, ?_, ?_⟩⟩⟩
          · rw [hv]
          · rw [hgiven, hgive, not_not.mp hgiveEq]
          · rw [hreceived, hreceive, not_not.mp hreceiveEq]
        · cases h
    · cases h
  · cases h

/-- The output a funding input spends, and its outpoint. -/
def FundingInput.spends (f : FundingInput Secret) : TransactionOutput :=
  (outputAt f.sourceTx f.vout).getD ⟨[], none⟩

def FundingInput.outpoint (f : FundingInput Secret) : Option String × Int :=
  (f.sourceTx.txid.toOption, f.vout)

/-- A funding input spends what it says. -/
theorem draftInput_ok {f : FundingInput Secret} {t : DraftInput Secret}
    (h : f.draftInput = .ok t) :
    spent t.input = f.spends ∧ outpoint t.input = f.outpoint := by
  unfold FundingInput.draftInput at h
  split at h
  · cases h
  · rename_i utxo hutxo
    obtain ⟨txid, htxid, h⟩ := bind_ok.mp h
    cases h
    refine ⟨?_, ?_⟩
    · rw [FundingInput.spends, hutxo]
      rfl
    · rw [FundingInput.outpoint, htxid]
      rfl

/-- What `accept_offer` has done when it returns. -/
structure Accepted (offer : SwapOffer) (funding : List (FundingInput Secret))
    (receivePkh changePkh : Bytes)
    (fee : Int) (tx : Transaction) where
  parsed : Transaction
  receive : TransactionOutput
  moreOutputs : List TransactionOutput
  given : TransactionOutput
  give : TransactionOutput
  ofHex : parseTxHex offer.partialTxHex = .ok (some parsed)
  ofOutputs : parsed.outputs = receive :: moreOutputs
  ofGive : assetOf (photons given) given.lockingScript = .ok offer.terms.give
  ofReceive : assetOf (photons receive) receive.lockingScript =
    .ok offer.terms.receive
  built : buildAssetOutput offer.terms.give receivePkh = .ok give
  inputs : tx.inputs.map outpoint =
    (parsed.inputs.take 1).map outpoint ++ funding.map FundingInput.outpoint
  balance : Balance (given :: funding.map FundingInput.spends)
    (parsed.outputs ++ [give]) changePkh fee tx.outputs

/-- What an accepted offer has opened, funded and signed. -/
theorem acceptOffer_ok {order : SetOrder} {offer : SwapOffer}
    {funding : List (FundingInput Secret)}
    {receivePkh changePkh : Bytes} {fee : Int} {tx : Transaction}
    (h : acceptOffer curve order offer funding receivePkh changePkh fee =
      .ok tx) :
    Nonempty (Accepted offer funding receivePkh changePkh fee tx) := by
  unfold acceptOffer at h
  obtain ⟨-, h⟩ := refuseIf_bind_ok.mp h
  obtain ⟨⟨d, realGive⟩, hopen, h⟩ := bind_ok.mp h
  obtain ⟨d1, hd1, h⟩ := bind_ok.mp h
  obtain ⟨bytes0, -, h⟩ := bind_ok.mp h
  obtain ⟨give, hgive, h⟩ := bind_ok.mp h
  obtain ⟨drafts, hdrafts, h⟩ := bind_ok.mp h
  obtain ⟨d2, hd2, h⟩ := bind_ok.mp h
  obtain ⟨d3, hd3, h⟩ := bind_ok.mp h
  obtain ⟨bytes1, -, h⟩ := bind_ok.mp h
  obtain ⟨-, h⟩ := refuseIf_bind_ok.mp h
  obtain ⟨d4, hd4, h⟩ := bind_ok.mp h
  cases h
  obtain ⟨rfl, ⟨o⟩⟩ := openOffer_ok hopen
  obtain ⟨flag, rfl⟩ := verifyOwnerSignature_ok hd1
  obtain ⟨⟨outputs, rfl, hbalance⟩, hknown⟩ := balanceAndAddChange_ok hd2
  obtain ⟨hout3, hpoints3⟩ := sign_ok hd3
  obtain ⟨flag', rfl⟩ := verifyOwnerSignature_ok hd4
  have hspends : drafts.map (fun t => spent t.input) =
      funding.map FundingInput.spends :=
    mapM_map (fun _ _ hf => (draftInput_ok hf).1) hdrafts
  have hpoints : outpoints drafts = funding.map FundingInput.outpoint :=
    mapM_map (fun _ _ hf => (draftInput_ok hf).2) hdrafts
  -- a second input of the maker would have reached the balancing without a
  -- value
  have hmore : o.moreInputs = [] := by
    cases hm : o.moreInputs with
    | nil => rfl
    | cons i more =>
      have hi : i ∈ o.parsed.inputs := by
        rw [o.ofInputs, hm]
        exact List.mem_cons_of_mem _ List.mem_cons_self
      refine absurd (parseTxHex_satoshis o.ofHex i hi) (hknown i ?_)
      show i ∈ (setSighash flag d.inputs ++ drafts).map DraftInput.input
      rw [o.draftInputs, hm]
      exact List.mem_cons_of_mem _ List.mem_cons_self
  have hin : d.inputs = [⟨{ o.makerIn with
      satoshis := o.given.satoshis, lockingScript := some o.given.lockingScript }, none⟩] := by
    rw [o.draftInputs, hmore]
    rfl
  have hfirst : o.parsed.inputs.take 1 = [o.makerIn] := by
    rw [o.ofInputs]
    rfl
  refine ⟨⟨o.parsed, o.receive, o.moreOutputs, o.given, give, o.ofHex,
    o.ofOutputs, o.ofGive, o.ofReceive,
    hgive, ?_, ?_⟩⟩
  · have hflag : outpoints (setSighash flag' d3.inputs) =
        outpoints d3.inputs := by
      cases d3.inputs <;> rfl
    show ((setSighash flag' d3.inputs).map DraftInput.input).map outpoint = _
    rw [List.map_map]
    show outpoints (setSighash flag' d3.inputs) = _
    rw [hflag, hpoints3, hin, hfirst, ← hpoints]
    rfl
  · have hspent :
        ((setSighash flag d.inputs ++ drafts).map DraftInput.input).map spent =
        o.given :: funding.map FundingInput.spends := by
      rw [← hspends, hin]
      show _ :: (drafts.map DraftInput.input).map spent = _
      rw [List.map_map]
      rfl
    have hbalance' : Balance
      (((setSighash flag d.inputs ++ drafts).map DraftInput.input).map spent)
        (d.outputs ++ [give]) changePkh fee outputs := hbalance
    rw [hspent, o.draftOutputs] at hbalance'
    show Balance _ _ _ _ d3.outputs
    rw [hout3]
    exact hbalance'

/-! ## The settled transaction -/

/-- The outputs of a settled swap: the maker's, the taker's, FT change and at
most one RXD change, with every photon and every unit the taker put in accounted
for. -/
structure Settlement (terms : SwapTerms) (funds : List TransactionOutput)
    (receivePkh changePkh : Bytes)
    (fee : Int) (outputs : List TransactionOutput) where
  receive : TransactionOutput
  give : TransactionOutput
  ftChange : List TransactionOutput
  rxdChange : List TransactionOutput
  paid : Int
  ofOutputs : outputs = receive :: give :: (ftChange ++ rxdChange)
  ofReceive : assetOf (photons receive) receive.lockingScript =
    .ok terms.receive
  ofGive : buildAssetOutput terms.give receivePkh = .ok give
  ofFtChange : PaysTo .ft changePkh ftChange
  ofRxdChange : PaysTo .rxd changePkh rxdChange
  oneChange : rxdChange.length ≤ 1
  photonsSpent : total funds =
    terms.receive.amount + total (ftChange ++ rxdChange) + paid
  unitsSpent : ∀ ref, units ref funds =
    terms.receive.units ref + units ref (ftChange ++ rxdChange)
  feeAtLeast : fee ≤ paid
  feeBelow : paid < fee + dustPhotons

/-- What the taker may sign: a settlement that spends the maker's first input
and the funding inputs, and holds nothing else of the partial transaction. -/
structure SwapSafe (parsed : Transaction) (terms : SwapTerms)
    (funding : List (FundingInput Secret))
    (receivePkh changePkh : Bytes) (fee : Int) (tx : Transaction) : Prop where
  settled : Nonempty (Settlement terms (funding.map FundingInput.spends)
    receivePkh changePkh fee tx.outputs)
  inputs : tx.inputs.map outpoint =
    (parsed.inputs.take 1).map outpoint ++ funding.map FundingInput.outpoint
  dropped : ∀ o ∈ parsed.outputs.drop 1, o ∉ tx.outputs

theorem Accepted.settled {offer : SwapOffer}
    {funding : List (FundingInput Secret)}
    {receivePkh changePkh : Bytes} {fee : Int} {tx : Transaction}
    (t : Accepted offer funding receivePkh changePkh fee tx)
    (hmore : t.moreOutputs = []) :
    Nonempty (Settlement offer.terms (funding.map FundingInput.spends)
      receivePkh changePkh fee tx.outputs) := by
  obtain ⟨ft, rxd, houtputs, hft, hrxd, hone, hnone⟩ := t.balance.change
  have houtputs' : tx.outputs = t.receive :: t.give :: (ft ++ rxd) := by
    rw [houtputs, t.ofOutputs, hmore, List.append_assoc]
    rfl
  obtain ⟨hgiven, hspelled⟩ := assetOf_ok t.ofGive
  obtain ⟨hreceive, -⟩ := assetOf_ok t.ofReceive
  obtain ⟨hgive, hgiveUnits⟩ := hspelled.built t.built
  have hfee := t.balance.atLeast
  have hbelow := t.balance.below
  have hunits := t.balance.conserved
  rw [houtputs', total_cons, total_cons, total_cons, ← hreceive, ← hgiven,
    hgive] at hfee hbelow
  refine ⟨⟨t.receive, t.give, ft, rxd,
    total (funding.map FundingInput.spends) - offer.terms.receive.amount -
    total (ft ++ rxd), houtputs', t.ofReceive, t.built, hft, hrxd, hone,
      ?_, ?_, ?_, ?_⟩⟩
  · omega
  · intro ref
    have h := hunits ref
    rw [houtputs', units_cons, units_cons, units_cons, unitsOf_eq t.ofGive,
      hgiveUnits, unitsOf_eq t.ofReceive] at h
    omega
  · omega
  · omega

/-- An output behind the first is still there, where balancing found it. -/
theorem Accepted.kept {offer : SwapOffer} {funding : List (FundingInput Secret)}
    {receivePkh changePkh : Bytes}
    {fee : Int} {tx : Transaction}
    (t : Accepted offer funding receivePkh changePkh fee tx)
    (hmore : t.moreOutputs ≠ []) :
    ¬ SwapSafe t.parsed offer.terms funding receivePkh changePkh fee tx := by
  intro hsafe
  obtain ⟨o, ho⟩ := List.exists_mem_of_ne_nil _ hmore
  refine hsafe.dropped o ?_ ?_
  · rw [t.ofOutputs]
    exact ho
  · obtain ⟨ft, rxd, houtputs, -⟩ := t.balance.change
    rw [houtputs, t.ofOutputs, List.append_assoc, List.append_assoc]
    exact List.mem_append_left _ (List.mem_cons_of_mem _ ho)

/-- **What an accepted offer pays for.** The transaction `accept_offer` returns
is a settlement of the terms exactly when the maker's partial transaction has no
output behind the first. -/
theorem acceptOffer_safe_iff (curve : Curve Key Secret) (order : SetOrder)
    (offer : SwapOffer)
    (funding : List (FundingInput Secret)) (receivePkh changePkh : Bytes)
    (fee : Int) (tx parsed : Transaction)
    (h : acceptOffer curve order offer funding receivePkh changePkh fee =
      .ok tx)
    (hparsed : parseTxHex offer.partialTxHex = .ok (some parsed)) :
    SwapSafe parsed offer.terms funding receivePkh changePkh fee tx ↔
    parsed.outputs.length = 1 := by
  obtain ⟨t⟩ := acceptOffer_ok h
  have hp : t.parsed = parsed :=
    Option.some.inj (Except.ok.inj (t.ofHex.symm.trans hparsed))
  have hout : parsed.outputs = t.receive :: t.moreOutputs := by
    rw [← hp]
    exact t.ofOutputs
  constructor
  · intro hsafe
    -- the given asset stands behind all outputs of the partial
    by_cases hm : t.moreOutputs = []
    · rw [hout, hm]
      rfl
    · rw [← hp] at hsafe
      exact absurd hsafe (t.kept hm)
  · intro hlen
    have hm : t.moreOutputs = [] := by
      rw [hout, List.length_cons] at hlen
      exact List.length_eq_zero_iff.mp (Nat.succ.inj hlen)
    refine ⟨t.settled hm, ?_, ?_⟩
    · rw [← hp]
      exact t.inputs
    · intro o ho
      rw [hout, hm] at ho
      cases ho

end Accept

/-! ## Two offers -/

/-- The maker's key and its hash, and the taker's. -/
def makerPublicKey : Bytes :=
  [0x02, 0x75, 0x92, 0xAA, 0xB5, 0xD4, 0x36, 0x18, 0xDD, 0xA1, 0x3F, 0xBA, 0x71,
    0xE3, 0x99, 0x3C,
   0xD7, 0x51, 0x7A, 0x71, 0x2D, 0x3D, 0xA4, 0x96, 0x64, 0xC0, 0x6E, 0xE1, 0xBD,
     0x3D, 0x1F, 0x70,
   0xAF]

def makerPkh : Bytes :=
  [0x92, 0x5D, 0x40, 0x28, 0x88, 0x0B, 0xD0, 0xC9, 0xD6, 0x8F, 0xBC, 0x7F, 0xC7,
    0xDF, 0xEE, 0x97,
   0x66, 0x98, 0x62, 0x9C]

def takerPublicKey : Bytes :=
  [0x02, 0xE5, 0x74, 0x0E, 0x63, 0xBA, 0xD2, 0x80, 0x81, 0xED, 0x7C, 0xF6, 0x54,
    0xDD, 0x6C, 0x19,
   0x02, 0x9C, 0xA0, 0x33, 0x82, 0xFC, 0x05, 0xAB, 0x5F, 0x5D, 0xDA, 0x81, 0xF2,
     0xC5, 0x5B, 0x84,
   0x5B]

def takerPkh : Bytes :=
  [0x3D, 0x98, 0x4C, 0x56, 0x79, 0xF9, 0x39, 0x9E, 0xB6, 0xCB, 0x41, 0xA9, 0xEA,
    0xC1, 0x6F, 0x69,
   0xAD, 0xF2, 0x9B, 0x26]

/-- The digest the maker signed, and the signature. -/
def makerDigest : Bytes :=
  [0xF7, 0x50, 0xAC, 0xE3, 0xD2, 0x47, 0x94, 0xB6, 0xF4, 0x33, 0xC3, 0xFF, 0x35,
    0x65, 0x7A, 0xB2,
   0x58, 0x2A, 0x88, 0x0B, 0x1E, 0xAD, 0x64, 0x79, 0x5A, 0x3E, 0x1C, 0xD7, 0x3D,
     0x7E, 0x77, 0x6F]

def makerSignature : Bytes :=
  [0x30, 0x44, 0x02, 0x20, 0x64, 0xCA, 0x4E, 0x37, 0xA8, 0xDE, 0xDD, 0x37, 0x36,
    0x30, 0xAD, 0x8E,
   0x7C, 0xFD, 0xE9, 0x80, 0x89, 0xAF, 0x86, 0x87, 0xCE, 0x4E, 0x67, 0xF6, 0x87,
     0xF1, 0xEF, 0x46,
   0xDA, 0xF8, 0x53, 0x0C, 0x02, 0x20, 0x40, 0xDD, 0xF7, 0xDB, 0x3C, 0x65, 0xA1,
     0x22, 0xB6, 0x9B,
   0x05, 0xF9, 0x7D, 0xF1, 0x71, 0x72, 0xD8, 0xFB, 0x55, 0xE5, 0x9D, 0x51, 0x9B,
     0xA8, 0x70, 0x59,
   0x1C, 0x81, 0x3D, 0xD1, 0x6C, 0xC2]

/-- The taker's signatures: of the transaction that came with one output, and
with two. -/
def takerSignature : Bytes :=
  [0x30, 0x44, 0x02, 0x20, 0x16, 0x41, 0x69, 0xF8, 0x4E, 0x12, 0x76, 0xF6, 0x1B,
    0x93, 0x14, 0x01,
   0xA8, 0x42, 0xD5, 0x67, 0x43, 0xCF, 0x91, 0xCD, 0x2C, 0x0E, 0xB8, 0xC9, 0x50,
     0x41, 0x19, 0x72,
   0x12, 0x5D, 0x96, 0x7A, 0x02, 0x20, 0x01, 0xC7, 0xF2, 0x76, 0x1F, 0x81, 0x0D,
     0xCE, 0xE5, 0x39,
   0xDC, 0x57, 0x2F, 0x11, 0x7D, 0x0A, 0x94, 0xBB, 0xAB, 0x86, 0x34, 0xF4, 0x44,
     0x67, 0xEC, 0x55,
   0x51, 0xB9, 0x74, 0x0C, 0x62, 0x4A]

def takerSignatureTwo : Bytes :=
  [0x30, 0x45, 0x02, 0x21, 0x00, 0xE7, 0x09, 0xF8, 0x5E, 0xF5, 0xDD, 0x70, 0xA9,
    0xF3, 0x87, 0x91,
   0x96, 0xAB, 0x02, 0xD7, 0x7D, 0x37, 0x34, 0xC1, 0xC2, 0xEC, 0xDF, 0xB5, 0xEE,
     0x89, 0xA7, 0x5D,
   0xBA, 0x27, 0x0C, 0x91, 0x12, 0x02, 0x20, 0x1C, 0xB4, 0x97, 0xDC, 0x8B, 0x19,
     0xC9, 0xAA, 0xD7,
   0x8A, 0x7D, 0x67, 0xFF, 0x10, 0xFA, 0x44, 0x9B, 0x15, 0xF5, 0x22, 0xC4, 0xFF,
     0x68, 0xCE, 0x74,
   0x69, 0xD1, 0x90, 0xEC, 0x98, 0x6B, 0x00]

/-- The curve library on the sample, where the maker's key is checked and the
taker's signs. -/
def sampleKeys (signature : Bytes) : Curve Bytes Unit where
  ripemd160 _ := makerPkh
  parse b := if b = makerPublicKey then .ok b
    else .error (.other "The public key could not be parsed or is invalid.")
  format key _ := key
  verify key der digest :=
    .ok (decide (key = makerPublicKey ∧ der = makerSignature ∧
      digest = makerDigest))
  sign _ _ := signature
  publicKey _ := takerPublicKey

def sampleOrder : SetOrder := ⟨id, fun _ _ => .rfl⟩

/-- 1000 photons of the maker for 500 of the taker; `outputs` is how the partial
transaction goes on behind its input. -/
def samplePartial (outputs : Bytes) : Bytes :=
  [0x01, 0x00, 0x00, 0x00, 0x01, 0x68, 0xCC, 0xCF, 0x92, 0x83, 0x42, 0x43, 0xF2,
    0x30, 0x32, 0xDB,
   0x4E, 0xAA, 0xCB, 0x6F, 0xCF, 0x4D, 0xB7, 0xF5, 0x91, 0x8C, 0xF0, 0x79, 0x0E,
     0x03, 0x08, 0x55,
   0xBF, 0xCB, 0xC1, 0x6B, 0x47, 0x00, 0x00, 0x00, 0x00, 0x6A, 0x47, 0x30, 0x44,
     0x02, 0x20, 0x64,
   0xCA, 0x4E, 0x37, 0xA8, 0xDE, 0xDD, 0x37, 0x36, 0x30, 0xAD, 0x8E, 0x7C, 0xFD,
     0xE9, 0x80, 0x89,
   0xAF, 0x86, 0x87, 0xCE, 0x4E, 0x67, 0xF6, 0x87, 0xF1, 0xEF, 0x46, 0xDA, 0xF8,
     0x53, 0x0C, 0x02,
   0x20, 0x40, 0xDD, 0xF7, 0xDB, 0x3C, 0x65, 0xA1, 0x22, 0xB6, 0x9B, 0x05, 0xF9,
     0x7D, 0xF1, 0x71,
   0x72, 0xD8, 0xFB, 0x55, 0xE5, 0x9D, 0x51, 0x9B, 0xA8, 0x70, 0x59, 0x1C, 0x81,
     0x3D, 0xD1, 0x6C,
   0xC2, 0xC3, 0x21, 0x02, 0x75, 0x92, 0xAA, 0xB5, 0xD4, 0x36, 0x18, 0xDD, 0xA1,
     0x3F, 0xBA, 0x71,
   0xE3, 0x99, 0x3C, 0xD7, 0x51, 0x7A, 0x71, 0x2D, 0x3D, 0xA4, 0x96, 0x64, 0xC0,
     0x6E, 0xE1, 0xBD,
   0x3D, 0x1F, 0x70, 0xAF, 0xFF, 0xFF, 0xFF, 0xFF] ++
    outputs ++ [0x00, 0x00, 0x00, 0x00]

def sampleGiveSource : Bytes :=
  [0x01, 0x00, 0x00, 0x00, 0x01, 0x07, 0x07, 0x07, 0x07, 0x07, 0x07, 0x07, 0x07,
    0x07, 0x07, 0x07,
   0x07, 0x07, 0x07, 0x07, 0x07, 0x07, 0x07, 0x07, 0x07, 0x07, 0x07, 0x07, 0x07,
     0x07, 0x07, 0x07,
   0x07, 0x07, 0x07, 0x07, 0x07, 0x00, 0x00, 0x00, 0x00, 0x00, 0xFF, 0xFF, 0xFF,
     0xFF, 0x01, 0xE8,
   0x03, 0x00, 0x00, 0x00, 0x00, 0x00, 0x00, 0x19, 0x76, 0xA9, 0x14, 0x92, 0x5D,
     0x40, 0x28, 0x88,
   0x0B, 0xD0, 0xC9, 0xD6, 0x8F, 0xBC, 0x7F, 0xC7, 0xDF, 0xEE, 0x97, 0x66, 0x98,
     0x62, 0x9C, 0x88,
   0xAC, 0x00, 0x00, 0x00, 0x00]

def sampleOffer (outputs : Bytes) : SwapOffer where
  partialTxHex := hex (samplePartial outputs)
  giveSourceTxHex := hex sampleGiveSource
  giveVout := 0
  terms := ⟨⟨.rxd, 1000, none, by decide, ⟨nofun, nofun⟩⟩,
    ⟨.rxd, 500, none, by decide, ⟨nofun, nofun⟩⟩⟩

/-- The 500 photons alone, and with an output of 9000 behind them, to the maker
as well. -/
def oneOutput : Bytes :=
  [0x01, 0xF4, 0x01, 0x00, 0x00, 0x00, 0x00, 0x00, 0x00, 0x19] ++ p2pkhHead ++
    makerPkh ++ p2pkhTail

def twoOutputs : Bytes :=
  0x02 :: oneOutput.drop 1 ++ [0x28, 0x23, 0x00, 0x00, 0x00, 0x00, 0x00,
    0x00, 0x19] ++
    p2pkhHead ++ makerPkh ++ p2pkhTail

/-- 20000 photons of the taker. -/
def sampleFunding : List (FundingInput Unit) :=
  [⟨⟨[⟨some (hex (List.replicate 32 0x09)), 0, some [], 0xFFFFFFFF, none, none,
    sighashAllForkid⟩],
    [⟨p2pkhHead ++ takerPkh ++ p2pkhTail, some 20000⟩], 1, 0⟩, 0, ⟨(), true⟩⟩]

/-- Written hex parses as the transaction. -/
theorem parseTxHex_hex (b : Bytes) :
    parseTxHex (hex b) = .ok (Transaction.fromHex b) := by
  rw [parseTxHex, fromHex_hex]

/-- The sample offer, once it is accepted. -/
theorem acceptOffer_sample (outputs signature : Bytes)
    (h : (acceptOffer (sampleKeys signature) sampleOrder
      (sampleOffer outputs) sampleFunding takerPkh takerPkh 100).isOk = true) :
    ∃ tx parsed, acceptOffer (sampleKeys signature) sampleOrder
      (sampleOffer outputs) sampleFunding takerPkh takerPkh 100 = .ok tx ∧
    parseTxHex (sampleOffer outputs).partialTxHex = .ok (some parsed) ∧
    Transaction.fromHex (samplePartial outputs) = some parsed := by
  obtain ⟨tx, htx⟩ := isOk_iff.mp h
  obtain ⟨t⟩ := acceptOffer_ok htx
  have hparsed := t.ofHex
  have hhex : parseTxHex (sampleOffer outputs).partialTxHex =
      .ok (Transaction.fromHex (samplePartial outputs)) :=
    parseTxHex_hex _
  exact ⟨tx, t.parsed, htx, hparsed, Except.ok.inj (hhex.symm.trans hparsed)⟩

/-- The taker pays 9000 photons that the terms know nothing about. -/
theorem acceptOffer_pays_appended : ∃ tx parsed,
    acceptOffer (sampleKeys takerSignatureTwo) sampleOrder
      (sampleOffer twoOutputs) sampleFunding takerPkh takerPkh 100 = .ok tx ∧
    parseTxHex (sampleOffer twoOutputs).partialTxHex = .ok (some parsed) ∧
    ¬ SwapSafe parsed (sampleOffer twoOutputs).terms sampleFunding takerPkh
      takerPkh 100 tx := by
  have hok : (acceptOffer (sampleKeys takerSignatureTwo) sampleOrder
      (sampleOffer twoOutputs) sampleFunding takerPkh takerPkh 100).isOk =
      true := by
    have h1 : parseTxHex (sampleOffer twoOutputs).partialTxHex = _ :=
      parseTxHex_hex _
    have h2 : parseTxHex (sampleOffer twoOutputs).giveSourceTxHex = _ :=
      parseTxHex_hex _
    rw [acceptOffer, openOffer, h1, h2]
    decide +kernel
  obtain ⟨tx, parsed, htx, hparsed, hread⟩ := acceptOffer_sample _ _ hok
  obtain ⟨t⟩ := acceptOffer_ok htx
  have hp : t.parsed = parsed :=
    Option.some.inj (Except.ok.inj (t.ofHex.symm.trans hparsed))
  have hlen : (Transaction.fromHex (samplePartial twoOutputs)).map
      (fun p => p.outputs.length) = some 2 := by
    decide
  refine ⟨tx, parsed, htx, hparsed, ?_⟩
  rw [← hp]
  apply t.kept
  intro hm
  rw [hread, ← hp, Option.map_some, t.ofOutputs, hm] at hlen
  cases hlen

/-- The statement at a partial with one output. -/
theorem acceptOffer_safe_oneOutput : ∃ tx parsed,
    acceptOffer (sampleKeys takerSignature) sampleOrder
      (sampleOffer oneOutput) sampleFunding takerPkh takerPkh
      100 = .ok tx ∧
        parseTxHex (sampleOffer oneOutput).partialTxHex = .ok (some parsed) ∧
    SwapSafe parsed (sampleOffer oneOutput).terms sampleFunding takerPkh
      takerPkh 100 tx := by
  have hok : (acceptOffer (sampleKeys takerSignature) sampleOrder (sampleOffer
      oneOutput) sampleFunding takerPkh takerPkh 100).isOk = true := by
    have h1 : parseTxHex (sampleOffer oneOutput).partialTxHex = _ :=
      parseTxHex_hex _
    have h2 : parseTxHex (sampleOffer oneOutput).giveSourceTxHex = _ :=
      parseTxHex_hex _
    rw [acceptOffer, openOffer, h1, h2]
    decide +kernel
  obtain ⟨tx, parsed, htx, hparsed, hread⟩ := acceptOffer_sample _ _ hok
  have hlen : (Transaction.fromHex (samplePartial oneOutput)).map
      (fun p => p.outputs.length) = some 1 := by
    decide
  rw [hread, Option.map_some] at hlen
  exact ⟨tx, parsed, htx, hparsed, (acceptOffer_safe_iff _ _ _ _ _ _ _ _ _ htx
    hparsed).mpr (Option.some.inj hlen)⟩

end Pyrxd.Swap
