import Pyrxd.Lib.Bytes

/-!
# Data pushes

A push is an opcode up to `0x4E`, the bytes that spell its length where the
opcode does not, and the data. Data may be pushed in more than one form. A push
is read in one way only (`readPush_bytes`, `readPush_sound`), so the pushes at
the head of a script are the same however far it is read (`pushes_prefix`).
-/

namespace Pyrxd.Lib

/-- How many bytes behind the opcode spell the length. -/
def lengthWidth (op : UInt8) : Nat :=
  if op = 0x4C then 1 else if op = 0x4D then 2 else if op = 0x4E then 4 else 0

/-- The length that an opcode and the bytes behind it say. -/
def pushSize (op : UInt8) (rest : Bytes) : Nat :=
  if op.toNat ≤ 75 then op.toNat else leNat (rest.take (lengthWidth op))

/-- A complete push, in any of its forms; `OP_0` pushes nothing. -/
structure DataPush where
  op : UInt8
  data : Bytes
  isPush : op ≤ 0x4E
  fits : if op.toNat ≤ 75 then data.length = op.toNat
    else data.length < 256 ^ lengthWidth op

namespace DataPush

/-- What stands behind the opcode. -/
def body (q : DataPush) : Bytes :=
  leBytes (lengthWidth q.op) q.data.length ++ q.data

def bytes (q : DataPush) : Bytes := q.op :: q.body

@[ext] theorem ext {p q : DataPush} (hop : p.op = q.op)
    (hdata : p.data = q.data) : p = q := by
  obtain ⟨op, data, _, _⟩ := p
  obtain ⟨op', data', _, _⟩ := q
  cases hop
  cases hdata
  rfl

end DataPush

/-- The code of a row of pushes. -/
def pushesBytes (qs : List DataPush) : Bytes := qs.flatMap DataPush.bytes

/-- A list of pushes by its first. -/
theorem pushesBytes_cons (q : DataPush) (qs : List DataPush) (rest : Bytes) :
    pushesBytes (q :: qs) ++ rest =
      q.op :: (q.body ++ (pushesBytes qs ++ rest)) := by
  rw [← List.append_assoc, ← List.cons_append]
  rfl

theorem pushesBytes_append (ps qs : List DataPush) :
    pushesBytes (ps ++ qs) = pushesBytes ps ++ pushesBytes qs :=
  List.flatMap_append

/-- The data behind an opcode, and what follows it; `none` where that is no push
or is cut short. -/
def readPush (op : UInt8) (rest : Bytes) : Option (Bytes × Bytes) :=
  if 0x4E < op then none
  else if rest.length < lengthWidth op + pushSize op rest then none
  else some ((rest.drop (lengthWidth op)).take (pushSize op rest),
    (rest.drop (lengthWidth op)).drop (pushSize op rest))

section Read

variable {op : UInt8} {rest tail d : Bytes}

/-- A direct push has no length bytes. -/
theorem lengthWidth_of_le (h : op.toNat ≤ 75) : lengthWidth op = 0 := by
  have hne : ∀ {c : UInt8}, 75 < c.toNat → op ≠ c := by
    rintro c hc rfl
    omega
  rw [lengthWidth, if_neg (hne (by decide)), if_neg (hne (by decide)),
    if_neg (hne (by decide))]

/-- The size a push states is its data's. -/
theorem DataPush.size_eq (q : DataPush) (rest : Bytes) :
    pushSize q.op (q.body ++ rest) = q.data.length := by
  have hfits := q.fits
  unfold pushSize
  by_cases hop : q.op.toNat ≤ 75
  · rw [if_pos hop] at hfits ⊢
    exact hfits.symm
  · rw [if_neg hop] at hfits ⊢
    rw [DataPush.body, List.append_assoc, List.take_left' (length_leBytes _ _),
      leNat_leBytes hfits]

/-- A push is read back, whatever follows it. -/
theorem readPush_bytes (q : DataPush) (rest : Bytes) :
    readPush q.op (q.body ++ rest) = some (q.data, rest) := by
  have hbody : q.body ++ rest =
      leBytes (lengthWidth q.op) q.data.length ++ (q.data ++ rest) := by
    rw [DataPush.body, List.append_assoc]
  have hlen : ¬ (q.body ++ rest).length < lengthWidth q.op + q.data.length := by
    rw [hbody, List.length_append, List.length_append, length_leBytes]
    omega
  rw [readPush, if_neg (UInt8.not_lt.mpr q.isPush), q.size_eq,
    if_neg hlen, hbody,
    List.drop_left' (length_leBytes _ _), List.take_left, List.drop_left]

/-- What is read is a push. -/
theorem readPush_sound (h : readPush op rest = some (d, tail)) :
    ∃ q : DataPush, q.op = op ∧ q.data = d ∧ rest = q.body ++ tail := by
  unfold readPush at h
  split at h
  · cases h
  rename_i hop
  split at h
  · cases h
  rename_i hlong
  simp only [Option.some.injEq, Prod.mk.injEq] at h
  obtain ⟨rfl, rfl⟩ := h
  generalize hwidth : lengthWidth op = width at *
  have hdata : ((rest.drop width).take (pushSize op rest)).length =
      pushSize op rest := by
    rw [List.length_take, List.length_drop]
    omega
  have hsplit : rest =
      rest.take width ++ ((rest.drop width).take (pushSize op rest) ++
      (rest.drop width).drop (pushSize op rest)) := by
    rw [List.take_append_drop, List.take_append_drop]
  have hhead : (rest.take width).length = width := by
    rw [List.length_take]
    omega
  refine ⟨⟨op, (rest.drop width).take (pushSize op rest), UInt8.not_lt.mp hop,
    ?_⟩, rfl, rfl, ?_⟩
  · rw [hdata, hwidth, pushSize, hwidth]
    split
    · rfl
    · have hlt := leNat_lt (rest.take width)
      rwa [hhead] at hlt
  · show rest = leBytes (lengthWidth op)
      ((rest.drop width).take (pushSize op rest)).length ++
      (rest.drop width).take (pushSize op rest) ++
        (rest.drop width).drop (pushSize op rest)
    -- the length bytes are the size they state
    have hspell : leBytes width (pushSize op rest) = rest.take width := by
      unfold pushSize
      rw [hwidth]
      split
      · rename_i hsmall
        rw [lengthWidth_of_le hsmall] at hwidth
        rw [← hwidth]
        rfl
      · have hback := leBytes_leNat (rest.take width)
        rwa [hhead] at hback
    rw [hdata, hwidth, hspell, List.append_assoc]
    exact hsplit

/-- Nothing more is read from `tail`. -/
def Stuck (tail : Bytes) : Prop := ∀ op rest, tail = op :: rest →
  readPush op rest = none

/-- A script in the pushes that are read from it, up to an opcode with
`stop`. -/
theorem exists_pushes (stop : UInt8 → Prop) [DecidablePred stop]
    (b : Bytes) : ∃ qs tail,
    b = pushesBytes qs ++ tail ∧ (∀ q ∈ qs, ¬ stop q.op) ∧
      ∀ op rest, tail = op :: rest → stop op ∨ readPush op rest = none := by
  generalize hn : b.length = n
  induction n using Nat.strongRecOn generalizing b with
  | ind n ih =>
    cases b with
    | nil => exact ⟨[], [], rfl, List.forall_mem_nil _, nofun⟩
    | cons op rest =>
      by_cases hstop : stop op
      · exact ⟨[], _, rfl, List.forall_mem_nil _,
          fun _ _ h => .inl ((List.cons.inj h).1 ▸ hstop)⟩
      · cases hread : readPush op rest with
        | none =>
          refine ⟨[], _, rfl, List.forall_mem_nil _, fun op' rest' h => .inr ?_⟩
          rw [← (List.cons.inj h).1, ← (List.cons.inj h).2, hread]
        | some pair =>
          obtain ⟨d, after⟩ := pair
          obtain ⟨q, rfl, rfl, rfl⟩ := readPush_sound hread
          have hshorter : after.length < n := by
            rw [← hn, List.length_cons, List.length_append]
            omega
          obtain ⟨qs, tail, rfl, hqs, htail⟩ :=
            ih after.length hshorter after rfl
          exact ⟨q :: qs, tail, (pushesBytes_cons q qs tail).symm,
            List.forall_mem_cons.mpr ⟨hstop, hqs⟩, htail⟩

/-- Pushes are read in one way: what stands at the head of a script is what is
read first. -/
theorem pushes_prefix {ps qs : List DataPush} {x : Bytes}
    (h : pushesBytes ps ++ x = pushesBytes qs ++ tail)
    (hstuck : Stuck tail) : ps <+: qs := by
  induction ps generalizing qs with
  | nil => exact List.nil_prefix
  | cons p ps ih =>
    rw [pushesBytes_cons] at h
    cases qs with
    | nil =>
      have hread := hstuck _ _ h.symm
      rw [readPush_bytes] at hread
      cases hread
    | cons q qs =>
      rw [pushesBytes_cons] at h
      obtain ⟨hop, hrest⟩ := List.cons.inj h
      have hp := readPush_bytes p (pushesBytes ps ++ x)
      rw [hop, hrest, readPush_bytes, Option.some.injEq, Prod.mk.injEq] at hp
      obtain ⟨t, rfl⟩ := ih hp.2.symm
      exact ⟨t, by rw [DataPush.ext hop hp.1.symm]; rfl⟩

end Read

end Pyrxd.Lib
