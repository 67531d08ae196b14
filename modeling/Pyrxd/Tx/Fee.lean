import Mathlib.Data.List.TakeWhile
import Mathlib.Tactic.Ring
import Pyrxd.Tx.Transaction

/-!
# Fees and change

`Transaction.fee`: what the inputs bring in, less the fee and the fixed outputs,
is spread evenly over the change outputs, or left to the miners when it does not
reach. Its guard compares what is left with the number of change outputs, so
with no change output at all a positive rest goes on to a division by zero
(`fee_settles_iff`).
-/

namespace Pyrxd.Tx

open Pyrxd.Lib

/-! ## Definitions -/

/-- An input with the transaction it spends from. -/
structure SourcedInput extends TransactionInput where
  sourceTransaction : Option Transaction

/-- An output with its change mark. -/
structure MarkedOutput extends TransactionOutput where
  change : Bool
deriving DecidableEq

/-- A transaction before its fee is settled. -/
structure FeeTx where
  inputs : List SourcedInput
  outputs : List MarkedOutput
  version : Int
  locktime : Int

/-- The fee that is asked for: an amount, or a model's `compute_fee`. -/
inductive FeeArg where
  | amount (n : Int)
  | model (computeFee : FeeTx → Except PyErr Int)

def FeeArg.compute : FeeArg → FeeTx → Except PyErr Int
  | .amount n, _ => .ok n
  | .model computeFee, tx => computeFee tx

/-- `l[i]`, where a negative index counts from the end. -/
def pyIndex {α : Type} (l : List α) (i : Int) : Option α :=
  if 0 ≤ i then l[i.toNat]?
  else if 0 ≤ l.length + i then l[(l.length + i).toNat]?
  else none

def missingSource : PyErr :=
  .other "Source transactions are required for all inputs during fee computation"

/-- `change += amount`, or `-=` by its sign, where the amount may be `None`. -/
def amountOf (op : String) : Option Int → Except PyErr Int
  | some v => .ok v
  | none =>
    .error (.other ("unsupported operand type(s) for " ++ op ++
      ": 'int' and 'NoneType'"))

/-- The loop over the inputs. -/
def sumSources : List SourcedInput → Int → Except PyErr Int
  | [], change => .ok change
  | i :: rest, change =>
    match i.sourceTransaction with
    | none => .error missingSource
    | some source =>
      match pyIndex source.outputs i.sourceOutputIndex with
      | none => .error (.other "list index out of range")
      | some out => do
        let satoshis ← amountOf "+=" out.satoshis
        sumSources rest (change + satoshis)

/-- The loop over the outputs: what is left, and the number of change
outputs. -/
def payOutputs : List MarkedOutput → Int → Int → Except PyErr (Int × Int)
  | [], change, changeCount => .ok (change, changeCount)
  | out :: rest, change, changeCount =>
    if out.change then payOutputs rest change (changeCount + 1)
    else do
      let satoshis ← amountOf "-=" out.satoshis
      payOutputs rest (change - satoshis) changeCount

/-- The loop that assigns the change. -/
def assignChange (perOutput remainder : Int) : Bool → List MarkedOutput →
    List MarkedOutput
  | _, [] => []
  | assignedRemainder, out :: rest =>
    if out.change then
      (if assignedRemainder then { out with satoshis := some perOutput }
        else { out with satoshis := some (perOutput + remainder) }) :: assignChange perOutput remainder true rest
    else out :: assignChange perOutput remainder assignedRemainder rest

/-- `change_distribution="equal"`. -/
def distributeEqual (tx : FeeTx) (change changeCount : Int) :
    Except PyErr FeeTx :=
  if changeCount = 0 then .error (.other "integer division or modulo by zero")
  else
    let perOutput := change / changeCount
    let remainder := change - perOutput * changeCount
    .ok { tx with outputs := assignChange perOutput remainder false tx.outputs }

/-- `Transaction.fee`. -/
def FeeTx.fee (tx : FeeTx) (modelOrFee : FeeArg)
    (changeDistribution : String := "equal") : Except PyErr FeeTx := do
  let fee ← modelOrFee.compute tx
  let change ← sumSources tx.inputs 0
  let (change, changeCount) ← payOutputs tx.outputs (change - fee) 0
  if change ≤
    changeCount then return { tx with outputs := tx.outputs.filter (!·.change) }
  else if changeDistribution = "random" then
    .error (.other "Random change distribution is not yet implemented")
  else if changeDistribution =
    "equal" then distributeEqual tx change changeCount
  else return tx

/-! ## Amounts -/

/-- The amount of the output that an input spends. -/
def SourcedInput.value (i : SourcedInput) : Option Int :=
  i.sourceTransaction.bind fun source =>
    (pyIndex source.outputs i.sourceOutputIndex).bind (·.satoshis)

/-- What the inputs bring in. -/
def inputsTotal (ins : List SourcedInput) : Int :=
  (ins.map fun i => i.value.getD 0).sum

def fixedOutputs (outs : List MarkedOutput) : List MarkedOutput :=
  outs.filter (!·.change)

def changeOutputs (outs : List MarkedOutput) : List MarkedOutput :=
  outs.filter (·.change)

/-- What the outputs that are not change take. -/
def fixedTotal (outs : List MarkedOutput) : Int :=
  ((fixedOutputs outs).map fun o => o.satoshis.getD 0).sum

/-- The inputs that are looked at: up to the first without a source
transaction. -/
def lookedAt (ins : List SourcedInput) : List SourcedInput :=
  ins.takeWhile (·.sourceTransaction.isSome)

/-- Every input has its source transaction. -/
def Sourced (ins : List SourcedInput) : Prop :=
  ∀ i ∈ ins, i.sourceTransaction.isSome

theorem amountOf_ok {op : String} {a : Option Int} {v : Int} :
    amountOf op a = .ok v ↔ a = some v := by
  cases a with
  | none => exact ⟨nofun, nofun⟩
  | some x =>
    rw [amountOf, Except.ok.injEq, Option.some.injEq]

/-! ## The loops -/

section Loops

variable {ins : List SourcedInput} {outs : List MarkedOutput} {i : SourcedInput}
  {change count x m : Int}

/-- The input loop adds a known value. -/
theorem sumSources_cons {v : Int} (h : i.value = some v) :
    sumSources (i :: ins) change = sumSources ins (change + v) := by
  obtain ⟨source, hsource, h⟩ := Option.bind_eq_some_iff.mp h
  obtain ⟨out, hout, hv⟩ := Option.bind_eq_some_iff.mp h
  rw [sumSources]
  simp only [hsource, hout]
  rw [amountOf_ok.mpr hv]
  rfl

/-- An input with a source but without an amount is an error of its own. -/
theorem sumSources_unpriced (hsource : i.sourceTransaction.isSome)
    (h : i.value = none) :
    ∃ e, sumSources (i :: ins) change = .error e ∧ e ≠ missingSource := by
  obtain ⟨source, hsource⟩ := Option.isSome_iff_exists.mp hsource
  rw [SourcedInput.value, hsource, Option.bind_some] at h
  rw [sumSources]
  simp only [hsource]
  cases hout : pyIndex source.outputs i.sourceOutputIndex with
  | none => exact ⟨_, rfl, by decide⟩
  | some out =>
    rw [hout, Option.bind_some] at h
    simp only [h]
    exact ⟨_, rfl, by decide⟩

theorem sumSources_unsourced (hsource : i.sourceTransaction = none) :
    sumSources (i :: ins) change = .error missingSource := by
  rw [sumSources, hsource]

theorem sourced_of_value {v : Int} (h : i.value = some v) :
    i.sourceTransaction.isSome := by
  obtain ⟨source, hsource, -⟩ := Option.bind_eq_some_iff.mp h
  rw [hsource]
  rfl

/-- The loop over the inputs ends well just if each of them has an amount. -/
theorem sumSources_ok : sumSources ins change = .ok x ↔
    (∀ i ∈ ins, i.value.isSome) ∧ x = change + inputsTotal ins := by
  induction ins generalizing change with
  | nil =>
    rw [sumSources, Except.ok.injEq, inputsTotal, List.map_nil,
      List.sum_nil, Int.add_zero]
    exact ⟨fun h => ⟨nofun, h.symm⟩, fun h => h.2.symm⟩
  | cons i ins ih =>
    rw [List.forall_mem_cons, inputsTotal, List.map_cons, List.sum_cons]
    cases hv : i.value with
    | some v =>
      rw [sumSources_cons hv, ih, inputsTotal, Option.getD_some,
        ← Int.add_assoc]
      exact ⟨fun h => ⟨⟨rfl, h.1⟩, h.2⟩, fun h => ⟨h.1.2, h.2⟩⟩
    | none =>
      refine ⟨fun h => ?_, fun h => absurd h.1.1 Bool.false_ne_true⟩
      cases hs : i.sourceTransaction with
      | none =>
        rw [sumSources_unsourced hs] at h
        cases h
      | some source =>
        obtain ⟨e, he, -⟩ := sumSources_unpriced (by rw [hs]; rfl) hv
        rw [he] at h
        cases h

/-- It raises for a missing source just if one is missing, and every input ahead
of it has an amount. -/
theorem sumSources_missing : sumSources ins change = .error missingSource ↔
    ¬ Sourced ins ∧ ∀ i ∈ lookedAt ins, i.value.isSome := by
  -- the loop stops at the first input without a source, unless a value failed
  -- before
  induction ins generalizing change with
  | nil =>
    rw [sumSources]
    exact ⟨nofun, fun h => absurd (fun i hi => by cases hi) h.1⟩
  | cons i ins ih =>
    cases hs : i.sourceTransaction with
    | none =>
      have hlooked : lookedAt (i :: ins) = [] :=
        List.takeWhile_cons_of_neg (by rw [hs]; exact Bool.false_ne_true)
      rw [sumSources_unsourced hs, hlooked]
      refine ⟨fun _ => ⟨fun hall => ?_, nofun⟩, fun _ => rfl⟩
      have hsome := hall i List.mem_cons_self
      rw [hs] at hsome
      cases hsome
    | some source =>
      have hsome : i.sourceTransaction.isSome := by
        rw [hs]
        rfl
      have hlooked : lookedAt (i :: ins) = i :: lookedAt ins :=
        List.takeWhile_cons_of_pos hsome
      have hsourced : Sourced (i :: ins) ↔ Sourced ins := by
        rw [Sourced, List.forall_mem_cons]
        exact ⟨fun h => h.2, fun h => ⟨hsome, h⟩⟩
      rw [hlooked, List.forall_mem_cons, hsourced]
      cases hv : i.value with
      | some v =>
        rw [sumSources_cons hv, ih]
        exact ⟨fun h => ⟨h.1, rfl, h.2⟩, fun h => ⟨h.1, h.2.2⟩⟩
      | none =>
        obtain ⟨e, he, hne⟩ := @sumSources_unpriced ins i change hsome hv
        rw [he, Except.error.injEq]
        exact ⟨fun h => absurd h hne, fun h => absurd h.2.1 Bool.false_ne_true⟩

/-- The loop over the outputs. -/
theorem payOutputs_ok : payOutputs outs change count = .ok (x, m) ↔
    (∀ o ∈ fixedOutputs outs, o.satoshis.isSome) ∧
    x = change - fixedTotal outs ∧
      m = count + (changeOutputs outs).length := by
  -- output by output: fixed amounts are taken off, change outputs are counted
  induction outs generalizing change count with
  | nil =>
    rw [payOutputs, Except.ok.injEq, Prod.mk.injEq]
    show _ ↔ _ ∧ x = change - 0 ∧ m = count + ((0 : Nat) : Int)
    exact ⟨fun h => ⟨nofun, by omega, by omega⟩, fun h => ⟨by omega, by omega⟩⟩
  | cons o outs ih =>
    rw [payOutputs]
    by_cases hc : o.change = true
    · have hfixed : fixedOutputs (o :: outs) = fixedOutputs outs :=
        List.filter_cons_of_neg (by rw [hc]; exact Bool.false_ne_true)
      have hchange : changeOutputs (o :: outs) = o :: changeOutputs outs :=
        List.filter_cons_of_pos hc
      have htotal : fixedTotal (o :: outs) = fixedTotal outs := by
        rw [fixedTotal, hfixed]
        rfl
      rw [if_pos hc, ih, htotal, hfixed, hchange, List.length_cons]
      exact ⟨fun h => ⟨h.1, h.2.1, by omega⟩, fun h => ⟨h.1, h.2.1, by omega⟩⟩
    · have hno : o.change = false := Bool.eq_false_iff.mpr hc
      have hfixed : fixedOutputs (o :: outs) = o :: fixedOutputs outs :=
        List.filter_cons_of_pos (by rw [hno]; rfl)
      have hchange : changeOutputs (o :: outs) = changeOutputs outs :=
        List.filter_cons_of_neg hc
      rw [if_neg hc, bind_ok, fixedTotal, hfixed, hchange, List.forall_mem_cons,
        List.map_cons, List.sum_cons]
      constructor
      · rintro ⟨v, hv, h⟩
        obtain ⟨hall, hx, hm⟩ := ih.mp h
        rw [amountOf_ok.mp hv, Option.getD_some]
        rw [fixedTotal] at hx
        exact ⟨⟨rfl, hall⟩, by omega, hm⟩
      · rintro ⟨⟨hsome, hall⟩, hx, hm⟩
        obtain ⟨v, hv⟩ := Option.isSome_iff_exists.mp hsome
        rw [hv, Option.getD_some] at hx
        refine ⟨v, amountOf_ok.mpr hv, ih.mpr ⟨hall, ?_, hm⟩⟩
        rw [fixedTotal]
        omega

end Loops

/-! ## Spreading the change -/

/-- Equal shares, of which the first takes what is over as well. -/
def handOut (per extra : Int) : Nat → List Int
  | 0 => []
  | n + 1 => (per + extra) :: List.replicate n per

/-- The even split of an amount. -/
def shares (change : Int) (count : Nat) : List Int := handOut (change / count)
  (change - change / count * count) count

/-- The parts share out the whole. -/
theorem sum_handOut (per extra : Int) (n : Nat) :
    (handOut per extra (n + 1)).sum = per * (n + 1 : Nat) + extra := by
  have hrest : (List.replicate n per).sum = per * n := by
    induction n with
    | zero =>
      rw [List.replicate_zero, List.sum_nil, Int.natCast_zero, Int.mul_zero]
    | succ n ih =>
      rw [List.replicate_succ, List.sum_cons, ih]
      push_cast
      ring
  rw [handOut, List.sum_cons, hrest]
  push_cast
  ring

/-- Each part is the share, or the share and the rest. -/
theorem mem_handOut {per extra v : Int} (hover : 0 ≤ extra) :
    ∀ {n : Nat}, v ∈ handOut per extra n →
    per ≤ v ∧ v ≤ per + extra
  | 0, hv => by cases hv
  | n + 1, hv => by
    rcases List.mem_cons.mp hv with rfl | hv
    · omega
    · rw [List.eq_of_mem_replicate hv]
      omega

/-- **An even split is exact**, has no empty share, and none that is ahead of
another by as much as there are shares. -/
theorem shares_even {change : Int} {count : Nat} (hcount : 0 < count)
    (hchange : (count : Int) < change) :
    (shares change count).sum = change ∧ (∀ v ∈ shares change count, 0 < v) ∧
      ∀ v ∈ shares change count, ∀ w ∈ shares change count, v - w < count := by
  have hpos : (0 : Int) < count := by omega
  have hover : 0 ≤ change - change / count * count ∧
      change - change / count * count < count := by
    rw [Int.mul_comm, ← Int.emod_def]
    exact ⟨Int.emod_nonneg _ hpos.ne', Int.emod_lt_of_pos _ hpos⟩
  have heach : 1 ≤ change / count := by
    rw [Int.le_ediv_iff_mul_le hpos]
    omega
  refine ⟨?_, ?_, ?_⟩
  · obtain ⟨n, rfl⟩ : ∃ n, count = n + 1 := ⟨count - 1, by omega⟩
    rw [shares, sum_handOut]
    omega
  · intro v hv
    have := (mem_handOut hover.1 hv).1
    omega
  · intro v hv w hw
    have h1 := (mem_handOut hover.1 hv).2
    have h2 := (mem_handOut hover.1 hw).1
    omega

/-- An output may have been given another amount, if it is change. -/
def Reassigned (o o' : MarkedOutput) : Prop :=
  o' = { o with satoshis := o'.satoshis } ∧ (o.change = false → o' = o)

section Assign

variable {per extra : Int}

/-- Assigning touches change amounts only. -/
theorem assignChange_shape (outs : List MarkedOutput) :
    ∀ b, List.Forall₂ Reassigned outs (assignChange per extra b outs) := by
  induction outs with
  | nil =>
    intro b
    exact .nil
  | cons o outs ih =>
    intro b
    rw [assignChange]
    by_cases hc : o.change = true
    · rw [if_pos hc]
      refine .cons ⟨?_, fun h => absurd hc (Bool.eq_false_iff.mp h)⟩ (ih true)
      cases b <;> rfl
    · rw [if_neg hc]
      exact .cons ⟨rfl, fun _ => rfl⟩ (ih b)

/-- The change outputs get the parts. -/
theorem assignChange_true (outs : List MarkedOutput) :
    (changeOutputs (assignChange per extra true outs)).map (·.satoshis) =
      (List.replicate (changeOutputs outs).length per).map some := by
  induction outs with
  | nil => rfl
  | cons o outs ih =>
    rw [assignChange]
    by_cases hc : o.change = true
    · have hchange : changeOutputs (o :: outs) = o :: changeOutputs outs :=
        List.filter_cons_of_pos hc
      have hassigned :
        ∀ l, changeOutputs ({ o with satoshis := some per } :: l) =
          { o with satoshis := some per } :: changeOutputs l :=
            fun l => List.filter_cons_of_pos hc
      rw [if_pos hc, if_pos rfl, hassigned, List.map_cons, ih, hchange,
        List.length_cons, List.replicate_succ, List.map_cons]
    · have hchange : changeOutputs (o :: outs) = changeOutputs outs :=
        List.filter_cons_of_neg hc
      have hkept : ∀ l, changeOutputs (o :: l) = changeOutputs l :=
        fun l => List.filter_cons_of_neg hc
      rw [if_neg hc, hkept, ih, hchange]

/-- What the change outputs hold afterwards. -/
theorem assignChange_false (outs : List MarkedOutput) :
    (changeOutputs (assignChange per extra false outs)).map (·.satoshis) =
      (handOut per extra (changeOutputs outs).length).map some := by
  induction outs with
  | nil => rfl
  | cons o outs ih =>
    rw [assignChange]
    by_cases hc : o.change = true
    · have hchange : changeOutputs (o :: outs) = o :: changeOutputs outs :=
        List.filter_cons_of_pos hc
      have hassigned :
        ∀ l, changeOutputs ({ o with satoshis := some (per + extra) } :: l) =
          { o with satoshis := some (per + extra) } :: changeOutputs l :=
            fun l => List.filter_cons_of_pos hc
      rw [if_pos hc, if_neg Bool.false_ne_true, hassigned, List.map_cons,
        assignChange_true, hchange, List.length_cons, handOut, List.map_cons]
    · have hchange : changeOutputs (o :: outs) = changeOutputs outs :=
        List.filter_cons_of_neg hc
      have hkept : ∀ l, changeOutputs (o :: l) = changeOutputs l :=
        fun l => List.filter_cons_of_neg hc
      rw [if_neg hc, hkept, ih, hchange]

end Assign

/-! ## When the fee settles -/

/-- What is left over for change. -/
def surplus (tx : FeeTx) (fee : Int) : Int :=
  inputsTotal tx.inputs - fixedTotal tx.outputs - fee

def changeCount (tx : FeeTx) : Nat := (changeOutputs tx.outputs).length

/-- The outputs after `rest` was spread over the change: no output but change
has another amount, and the change adds up to it in shares that are as even as
they can be. -/
structure Spread (outs outs' : List MarkedOutput) (rest : Int)
    (count : Nat) : Prop where
  shape : List.Forall₂ Reassigned outs outs'
  values : ∃ values : List Int, (changeOutputs outs').map (·.satoshis) =
    values.map some ∧ values.sum = rest ∧
    (∀ v ∈ values, 0 < v) ∧ ∀ v ∈ values, ∀ w ∈ values, v - w < count

/-- The transaction with its fee settled. -/
def Settled (tx : FeeTx) (fee : Int) (tx' : FeeTx) : Prop :=
  if 0 < changeCount tx ∧ (changeCount tx : Int) < surplus tx fee then
    ∃ outs', tx' = { tx with outputs := outs' } ∧
      Spread tx.outputs outs' (surplus tx fee) (changeCount tx)
  else tx' = { tx with outputs := fixedOutputs tx.outputs }

/-- It raises for a missing source, or it returns with the fee settled. -/
def FeeDone (tx : FeeTx) (modelOrFee : FeeArg) (fee : Int) : Prop :=
  (¬ Sourced tx.inputs ∧ tx.fee modelOrFee = .error missingSource) ∨
    ∃ tx', tx.fee modelOrFee = .ok tx' ∧ Settled tx fee tx'

/-- The amounts that are looked at are there, and where there is no change
output the inputs do not exceed the outputs and the fee. -/
structure FeeReady (tx : FeeTx) (fee : Int) : Prop where
  inputs : ∀ i ∈ lookedAt tx.inputs, i.value.isSome
  outputs : Sourced tx.inputs → ∀ o ∈ fixedOutputs tx.outputs, o.satoshis.isSome
  reaches : Sourced tx.inputs → 0 < changeCount tx ∨
    inputsTotal tx.inputs ≤ fixedTotal tx.outputs + fee

section Fee

variable {tx : FeeTx} {arg : FeeArg} {fee : Int}

theorem lookedAt_sourced (h : Sourced tx.inputs) :
    lookedAt tx.inputs = tx.inputs :=
  List.takeWhile_eq_self_iff.mpr h

/-- The last step of `fee`, after both loops. -/
def settle (tx : FeeTx) (change changeCount : Int) : Except PyErr FeeTx :=
  if change ≤
    changeCount then .ok { tx with outputs := fixedOutputs tx.outputs }
  else distributeEqual tx change changeCount

/-- With the amounts known, `fee` comes down to its last step. -/
theorem fee_eq (hf : arg.compute tx = .ok fee)
    (hins : ∀ i ∈ tx.inputs, i.value.isSome)
    (houts : ∀ o ∈ fixedOutputs tx.outputs, o.satoshis.isSome) :
    tx.fee arg = settle tx (surplus tx fee) (changeCount tx) := by
  have hsources : sumSources tx.inputs 0 = .ok (inputsTotal tx.inputs) :=
    sumSources_ok.mpr ⟨hins, (Int.zero_add _).symm⟩
  have hpay : payOutputs tx.outputs (inputsTotal tx.inputs - fee) 0 =
      .ok (surplus tx fee, (changeCount tx : Int)) :=
    payOutputs_ok.mpr ⟨houts, by rw [surplus]; omega, by rw [changeCount]; omega⟩
  unfold FeeTx.fee
  rw [hf, ok_bind, hsources, ok_bind, hpay, ok_bind]
  rfl

/-- The last step settles the fee unless it has to divide by zero. -/
theorem settle_iff : (∃ tx', settle tx (surplus tx fee) (changeCount tx) =
    .ok tx' ∧ Settled tx fee tx') ↔
    0 < changeCount tx ∨
      inputsTotal tx.inputs ≤ fixedTotal tx.outputs + fee := by
  by_cases hle : surplus tx fee ≤ changeCount tx
  · have hsettled :
        Settled tx fee { tx with outputs := fixedOutputs tx.outputs } := by
      rw [Settled, if_neg fun h => absurd h.2 (not_lt.mpr hle)]
    rw [settle, if_pos hle]
    refine ⟨fun _ => ?_, fun _ => ⟨_, rfl, hsettled⟩⟩
    rw [surplus] at hle
    omega
  · rw [settle, if_neg hle, distributeEqual]
    by_cases hcount : 0 < changeCount tx
    · have hlt : (changeCount tx : Int) < surplus tx fee := not_le.mp hle
      rw [if_neg (by omega)]
      refine ⟨fun _ => .inl hcount, fun _ => ⟨_, rfl, ?_⟩⟩
      rw [Settled, if_pos ⟨hcount, hlt⟩]
      exact ⟨_, rfl, assignChange_shape _ _, _, assignChange_false _,
        shares_even hcount hlt⟩
    · have hzero : (changeCount tx : Int) = 0 := by omega
      rw [if_pos hzero]
      refine ⟨nofun, fun h => ?_⟩
      rw [surplus] at hle
      omega

/-- What `fee` has read when it returns. -/
theorem fee_ok {tx' : FeeTx} (h : tx.fee arg = .ok tx') :
    (∀ i ∈ tx.inputs, i.value.isSome) ∧
    ∀ o ∈ fixedOutputs tx.outputs, o.satoshis.isSome := by
  unfold FeeTx.fee at h
  obtain ⟨_, -, h⟩ := bind_ok.mp h
  obtain ⟨_, hsources, h⟩ := bind_ok.mp h
  obtain ⟨⟨_, _⟩, hpay, -⟩ := bind_ok.mp h
  exact ⟨(sumSources_ok.mp hsources).1, (payOutputs_ok.mp hpay).1⟩

/-- When the fee refuses for a missing source. -/
theorem fee_missing (hf : arg.compute tx = .ok fee) (h : ¬ Sourced tx.inputs) :
    tx.fee arg = .error missingSource ↔
    ∀ i ∈ lookedAt tx.inputs, i.value.isSome := by
  cases hsources : sumSources tx.inputs 0 with
  | ok x =>
    refine absurd (fun i hi => ?_) h
    obtain ⟨v, hv⟩ :=
      Option.isSome_iff_exists.mp ((sumSources_ok.mp hsources).1 i hi)
    exact sourced_of_value hv
  | error e =>
    have hfee : tx.fee arg = .error e := by
      unfold FeeTx.fee
      rw [hf, ok_bind, hsources]
      rfl
    have hmissing := @sumSources_missing tx.inputs 0
    rw [hsources, Except.error.injEq] at hmissing
    rw [hfee, Except.error.injEq, hmissing]
    exact ⟨fun hs => hs.2, fun hs => ⟨h, hs⟩⟩

/-- **When `fee` does what it says.** It raises for a missing source or settles
the fee just if the amounts it reads are there and, where no output is change,
the inputs leave nothing over. -/
theorem fee_settles_iff (tx : FeeTx) (arg : FeeArg) (fee : Int)
    (hf : arg.compute tx = .ok fee) :
    FeeDone tx arg fee ↔ FeeReady tx fee := by
  by_cases hsourced : Sourced tx.inputs
  · have hlooked := lookedAt_sourced hsourced
    constructor
    · rintro (⟨hmissing, -⟩ | ⟨tx', hok, hsettled⟩)
      · exact absurd hsourced hmissing
      · obtain ⟨hins, houts⟩ := fee_ok hok
        rw [fee_eq hf hins houts] at hok
        exact ⟨by rw [hlooked]; exact hins, fun _ => houts, fun _ => settle_iff.mp ⟨tx',
          hok, hsettled⟩⟩
    · intro h
      have hins := h.inputs
      rw [hlooked] at hins
      rw [FeeDone, fee_eq hf hins (h.outputs hsourced)]
      exact .inr (settle_iff.mpr (h.reaches hsourced))
  · rw [FeeDone, fee_missing hf hsourced]
    constructor
    · rintro (⟨-, hlooked⟩ | ⟨tx', hok, -⟩)
      · exact ⟨hlooked, fun h => absurd h hsourced, fun h => absurd h hsourced⟩
      · refine absurd (fun i hi => ?_) hsourced
        obtain ⟨v, hv⟩ := Option.isSome_iff_exists.mp ((fee_ok hok).1 i hi)
        exact sourced_of_value hv
    · exact fun h => .inl ⟨hsourced, h.inputs⟩

end Fee

/-- A thousand photons of one source, and the outputs given. -/
def thousandIn (outputs : List MarkedOutput) : FeeTx where
  inputs := [{
    sourceTxid := none, sourceOutputIndex := 0, unlockingScript := none,
      sequence := 0xFFFFFFFF
    satoshis := some 1000, lockingScript := some [], sighash := sighashAllForkid
    sourceTransaction := some ⟨[], [⟨[], some 1000⟩], 1, 0⟩ }]
  outputs := outputs
  version := 1
  locktime := 0

/-- With a change output the fee settles. -/
theorem fee_settles_iff_change : FeeDone (thousandIn [⟨⟨[], none⟩, true⟩])
    (.amount 500) 500 := by
  refine (fee_settles_iff _ (.amount 500) 500 rfl).mpr ⟨?_, ?_, ?_⟩
  · decide
  · exact fun _ => by decide
  · exact fun _ => .inl (by decide)

/-- Without one, and with something left over, it divides by zero. -/
theorem fee_without_change : ¬ ∀ (tx : FeeTx) (arg : FeeArg)
    (fee : Int), arg.compute tx = .ok fee → 0 ≤ fee → Sourced tx.inputs →
    FeeDone tx arg fee := by
  intro h
  have hsourced : Sourced (thousandIn []).inputs := by
    rw [Sourced]
    decide
  have hzero : (thousandIn []).fee (.amount 500) =
      .error (.other "integer division or modulo by zero") := rfl
  rcases h (thousandIn []) (.amount 500) 500 rfl
    (by decide) hsourced with ⟨hmissing, -⟩ | ⟨tx', hok, -⟩
  · exact hmissing hsourced
  · rw [hzero] at hok
    cases hok

end Pyrxd.Tx
