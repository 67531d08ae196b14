import Pyrxd.Swap.PartialSafety

/-!
# Balancing a swap

`_balance_and_add_change` on its own: it raises, or it only appends change for
the taker, after which every token is conserved and the fee is paid with less
than dust to spare.
-/

namespace Pyrxd.Swap

open Pyrxd.Lib Pyrxd.Tx

/-- The owner's hash stands behind the first three bytes of either lock. -/
theorem take_owner {pkh rest : Bytes} (h : pkh.length = 20) :
    ((p2pkhHead ++ pkh ++ p2pkhTail ++ rest).drop 3).take 20 = pkh := by
  have hdrop : (p2pkhHead ++ pkh ++ p2pkhTail ++ rest).drop 3 =
      pkh ++ (p2pkhTail ++ rest) := by
    rw [List.append_assoc, List.append_assoc]
    exact List.drop_left' rfl
  rw [hdrop]
  exact List.take_left' h

/-- **An output built for a holder is that holder's to spend.** -/
theorem ownerPkhOf_built {a : Asset} {pkh : Bytes}
    {o : TransactionOutput} (h : buildAssetOutput a pkh = .ok o) :
    ownerPkhOf o.lockingScript = .ok pkh := by
  unfold buildAssetOutput at h
  -- each kind of output names its owner at its own offset
  cases hkind : a.kind with
  | rxd =>
    rw [hkind] at h
    obtain ⟨script, hscript, h⟩ := bind_ok.mp h
    obtain ⟨hlen, hscript⟩ := refuseIf_bind_ok.mp hscript
    cases hscript
    cases h
    have hlen := not_not.mp hlen
    have hown := @take_owner pkh [] hlen
    rw [List.append_nil] at hown
    rw [ownerPkhOf, (isP2pkh_lock hlen).1, Bool.true_or, if_pos rfl, hown]
  | ft =>
    rw [hkind] at h
    cases href : a.ref with
    | none =>
      rw [href] at h
      cases h
    | some ref =>
      rw [href] at h
      obtain ⟨script, hscript, h⟩ := bind_ok.mp h
      cases h
      obtain ⟨hlen, hscript⟩ := refuseIf_bind_ok.mp hscript
      obtain ⟨data, -, hscript⟩ := bind_ok.mp hscript
      have hlen := not_not.mp hlen
      simp only at hscript
      split at hscript
      · cases hscript
      · rename_i hsize
        cases hscript
        have hdata : data.length = 36 := by
          have hfull := not_not.mp hsize
          simp only [List.length_append, hlen] at hfull
          have h1 : p2pkhHead.length = 3 := rfl
          have h2 : p2pkhTail.length = 2 := rfl
          have h3 : ftHead.length = 2 := rfl
          have h4 : ftTail.length = 12 := rfl
          omega
        rw [ownerPkhOf, (isFtScript_lock hlen hdata).1, Bool.or_true,
          if_pos rfl, take_owner hlen]

/-- Outputs that pay an owner name that owner. -/
theorem PaysTo.owner {kind : AssetKind} {pkh : Bytes}
    {os : List TransactionOutput} (h : PaysTo kind pkh os) :
    ∀ o ∈ os, ownerPkhOf o.lockingScript = .ok pkh := by
  intro o ho
  obtain ⟨a, -, hbuilt⟩ := h o ho
  exact ownerPkhOf_built hbuilt

/-- **What balancing leaves.** It raises, or it appends outputs for the holder
of the change and touches nothing else; then each token goes out as it came in,
and what is left over is the fee and less than dust. -/
theorem balance_conserves {Secret : Type} (order : SetOrder) (d : Draft Secret)
    (changePkh : Bytes) (fee : Int) :
    (∃ e, balanceAndAddChange order d changePkh fee = .error e) ∨
    ∃ added, balanceAndAddChange order d changePkh fee = .ok
      { d with outputs := d.outputs ++ added } ∧
      (∀ o ∈ added, ownerPkhOf o.lockingScript = .ok changePkh) ∧
      (∀ ref, units ref (d.tx.inputs.map spent) =
        units ref (d.outputs ++ added)) ∧
      fee ≤ total (d.tx.inputs.map spent) - total (d.outputs ++ added) ∧
      total (d.tx.inputs.map spent) - total (d.outputs ++ added) <
        fee + 546 := by
  cases hb : balanceAndAddChange order d changePkh fee with
  | error e => exact .inl ⟨e, rfl⟩
  | ok d' =>
    obtain ⟨⟨outputs, rfl, hbalance⟩, -⟩ := balanceAndAddChange_ok hb
    obtain ⟨ft, rxd, rfl, hft, hrxd, -⟩ := hbalance.change
    have hatLeast := hbalance.atLeast
    have hbelow := hbalance.below
    have hconserved := hbalance.conserved
    rw [List.append_assoc] at hatLeast hbelow
    simp only [List.append_assoc] at hconserved
    refine .inr ⟨ft ++
      rxd, by rw [List.append_assoc], ?_, hconserved, hatLeast, hbelow⟩
    intro o ho
    rcases List.mem_append.mp ho with ho | ho
    · exact hft.owner o ho
    · exact hrxd.owner o ho

end Pyrxd.Swap
