import Pyrxd.Lib.TxScript

/-!
# A script machine over any opcodes

The control of the script interpreter: pushes, refs, the conditionals and the
alternative stack. What every other opcode does is a parameter (`OpSem`), so a
fact proved here holds whatever the opcodes mean that a piece of code does not
use. `none` is an aborted script.

Code is described by the partial function it computes on the stack (`Does`), and
longer code is put together from shorter. `exec_framed` is for code one knows
nothing of: if its conditionals are balanced, what stands behind it is run
outside of them.
-/

namespace Pyrxd.Lib

/-- What an opcode does with the stack, top first. -/
abbrev OpSem := UInt8 → List Bytes → Option (List Bytes)

namespace Machine

structure State where
  stack : List Bytes
  alt : List Bytes
  cond : List Bool

/-- No open conditional is in a branch that is not taken. -/
def State.executing (m : State) : Bool := m.cond.all id

/-- `IF`, and `NOTIF` for `wanted = false`. -/
def openBranch (wanted : Bool) (m : State) : Option State :=
  if m.executing then
    match m.stack with
    | x :: s =>
      some { m with stack := s, cond := (truthy x == wanted) :: m.cond }
    | [] => none
  else some { m with cond := false :: m.cond }

def flipBranch (m : State) : Option State :=
  match m.cond with
  | b :: c => some { m with cond := (!b) :: c }
  | [] => none

def closeBranch (m : State) : Option State :=
  match m.cond with
  | _ :: c => some { m with cond := c }
  | [] => none

def toAlt (m : State) : Option State :=
  match m.stack with
  | x :: s => some { m with stack := s, alt := x :: m.alt }
  | [] => none

def fromAlt (m : State) : Option State :=
  match m.alt with
  | x :: a => some { m with stack := x :: m.stack, alt := a }
  | [] => none

variable (op : OpSem)

def step (m : State) : Chunk → Option State
  | .data d =>
    some (if m.executing then { m with stack := d :: m.stack } else m)
  | .ref _ r =>
    some (if m.executing then { m with stack := r :: m.stack } else m)
  | .op code =>
    if code = 0x63 then openBranch true m
    else if code = 0x64 then openBranch false m
    -- VERIF and VERNOTIF, also in a branch that is not taken
    else if code = 0x65 ∨ code = 0x66 then none
    else if code = 0x67 then flipBranch m
    else if code = 0x68 then closeBranch m
    else if m.executing then
      if code = 0x6B then toAlt m
      else if code = 0x6C then fromAlt m
      else (op code m.stack).map fun s => { m with stack := s }
    else some m

def exec (ts : List Chunk) (m : State) : Option State := ts.foldlM (step op) m

/-- Run code on a stack; every conditional must be closed at the end. -/
def run (code : Bytes) (stack : List Bytes) : Option (List Bytes) := do
  let ts ← readCode code.length code
  let m ← exec op ts ⟨stack, [], []⟩
  if m.cond = [] then some m.stack else none

/-- A script succeeds if it leaves `true` on top. -/
def Accepts (code : Bytes) (stack : List Bytes) : Prop :=
  ∃ top rest, run op code stack = some (top :: rest) ∧ truthy top = true

/-- It succeeds and leaves nothing else. -/
def AcceptsClean (code : Bytes) (stack : List Bytes) : Prop :=
  ∃ top, run op code stack = some [top] ∧ truthy top = true

variable {op} {a b ts : List Chunk} {m m' : State}
  {f g : List Bytes → Option (List Bytes)}

theorem AcceptsClean.accepts {code : Bytes} {stack : List Bytes}
    (h : AcceptsClean op code stack) :
    Accepts op code stack := by
  obtain ⟨top, hrun, htop⟩ := h
  exact ⟨top, [], hrun, htop⟩

/-- Running two parts is running one after the other. -/
theorem exec_append (a b : List Chunk) (m : State) :
    exec op (a ++ b) m = (exec op a m).bind (exec op b) := List.foldlM_append

theorem exec_cons (t : Chunk) (ts : List Chunk) (m : State) :
    exec op (t :: ts) m = (step op m t).bind (exec op ts) := List.foldlM_cons

theorem exec_one (t : Chunk) (m : State) : exec op [t] m = step op m t := by
  rw [exec_cons]
  cases step op m t <;> rfl

/-! ## Code as a partial function -/

/-- An opcode that only works on the stack. -/
def Ordinary (code : UInt8) : Prop := ¬ (0x63 ≤ code ∧ code ≤ 0x68) ∧
  code ≠ 0x6B ∧ code ≠ 0x6C

instance (code : UInt8) : Decidable (Ordinary code) :=
  inferInstanceAs (Decidable (_ ∧ _))

/-- Executed, the code computes `f` on the stack; in a branch that is not taken
it does nothing. -/
structure Does (op : OpSem) (ts : List Chunk)
    (f : List Bytes → Option (List Bytes)) : Prop where
  taken : ∀ s alt cond, cond.all id = true →
    exec op ts ⟨s, alt, cond⟩ = (f s).map (⟨·, alt, cond⟩)
  skipped : ∀ s alt cond, cond.all id = false →
    exec op ts ⟨s, alt, cond⟩ = some ⟨s, alt, cond⟩

/-- The effect may be said in other words. -/
theorem Does.congr (h : Does op ts f) (hfg : ∀ s, f s = g s) :
    Does op ts g := by
  have heq : f = g := funext hfg
  rwa [← heq]

theorem Does.nil : Does op [] some := ⟨fun _ _ _ _ => rfl, fun _ _ _ _ => rfl⟩

theorem Does.append (ha : Does op a f) (hb : Does op b g) :
    Does op (a ++ b) fun s => (f s).bind g := by
  constructor
  · intro s alt cond hc
    rw [exec_append, ha.taken s alt cond hc]
    cases f s with
    | none => rfl
    | some s' => exact hb.taken s' alt cond hc
  · intro s alt cond hc
    rw [exec_append, ha.skipped s alt cond hc]
    exact hb.skipped s alt cond hc

/-- What `IF` does with the top of the stack. -/
theorem Does.ifElse (ha : Does op a f) (hb : Does op b g) :
    Does op ([.op 0x63] ++ a ++ ([.op 0x67] ++ b ++ [.op 0x68]))
      (branchOn f g) := by
  have helse : ∀ s alt c cond, exec op [.op 0x67] ⟨s, alt, c :: cond⟩ = some ⟨s,
      alt, (!c) :: cond⟩ :=
    fun _ _ _ _ => rfl
  have hendif : ∀ s alt c cond, exec op [.op 0x68] ⟨s, alt, c :: cond⟩ =
      some ⟨s, alt, cond⟩ :=
    fun _ _ _ _ => rfl
  constructor
  · intro s alt cond hc
    rw [exec_append, exec_append, exec_one, step, if_pos rfl, openBranch,
      State.executing, if_pos hc]
    cases s with
    | nil => rfl
    | cons x s =>
      show (exec op a ⟨s, alt, (truthy x == true) :: cond⟩).bind _ = _
      rw [branchOn]
      by_cases hx : truthy x = true
      · rw [if_pos hx, hx, beq_self_eq_true,
          ha.taken s alt _ (all_cons_true hc)]
        cases f s with
        | none => rfl
        | some s' =>
          rw [Option.map_some, Option.bind_some, exec_append, exec_append,
            helse, Option.bind_some,
            Bool.not_true, hb.skipped _ _ _ (all_cons_false cond),
              Option.bind_some, hendif]
          rfl
      · have hx' : (truthy x == true) = false := beq_false_of_ne hx
        rw [if_neg hx, hx', ha.skipped s alt _ (all_cons_false cond),
          Option.bind_some, exec_append,
          exec_append, helse, Option.bind_some, Bool.not_false,
            hb.taken s alt _ (all_cons_true hc)]
        cases g s <;> rfl
  · intro s alt cond hc
    have hc' : (true :: cond).all id = false := by
      rw [List.all_cons, hc]
      rfl
    rw [exec_append, exec_append, exec_one, step, if_pos rfl, openBranch,
      State.executing, hc,
      if_neg Bool.false_ne_true, Option.bind_some,
        ha.skipped s alt _ (all_cons_false cond),
      Option.bind_some, exec_append, exec_append, helse, Option.bind_some,
        Bool.not_false,
      hb.skipped s alt _ hc', Option.bind_some, hendif]

/-! ## Straight code -/

/-- One executed chunk that only works on the stack. -/
def runChunk (op : OpSem) : Chunk → List Bytes → Option (List Bytes)
  | .data d, s => some (d :: s)
  | .ref _ r, s => some (r :: s)
  | .op code, s => op code s

/-- A row of them. -/
def line (op : OpSem) : List Chunk → List Bytes → Option (List Bytes)
  | [], s => some s
  | t :: ts, s => (runChunk op t s).bind (line op ts)

def Straight : Chunk → Prop
  | .op code => Ordinary code
  | _ => True

instance : DecidablePred Straight := fun t =>
  match t with
  | .data _ => inferInstanceAs (Decidable True)
  | .ref _ _ => inferInstanceAs (Decidable True)
  | .op code => inferInstanceAs (Decidable (Ordinary code))

theorem line_nil (s : List Bytes) : line op [] s = some s := rfl

theorem line_op (code : UInt8) (ts : List Chunk) (s : List Bytes) :
    line op (.op code :: ts) s = (op code s).bind (line op ts) := rfl

theorem line_data (d : Bytes) (ts : List Chunk) (s : List Bytes) :
    line op (.data d :: ts) s = line op ts (d :: s) := rfl

theorem line_ref (code : UInt8) (r : Bytes) (ts : List Chunk) (s : List Bytes) :
    line op (.ref code r :: ts) s = line op ts (r :: s) := rfl

/-- A straight line of two parts. -/
theorem line_append (a b : List Chunk) (s : List Bytes) :
    line op (a ++ b) s = (line op a s).bind (line op b) := by
  induction a generalizing s with
  | nil => rfl
  | cons t a ih =>
    rw [List.cons_append, line, line]
    cases runChunk op t s with
    | none => rfl
    | some s' => exact ih s'

/-- An ordinary opcode acts unless its branch is off. -/
theorem step_ordinary {code : UInt8} (h : Ordinary code) (m : State) :
    step op m (.op code) =
    if m.executing then (op code m.stack).map fun s => { m with stack := s }
      else some m := by
  obtain ⟨hbranch, hto, hfrom⟩ := h
  have hne : ∀ c : UInt8, 0x63 ≤ c ∧ c ≤ 0x68 → code ≠ c :=
    fun c hc heq => hbranch (heq ▸ hc)
  rw [step, if_neg (hne _ (by decide)), if_neg (hne _ (by decide)),
    if_neg (not_or.mpr ⟨hne _ (by decide), hne _ (by decide)⟩),
      if_neg (hne _ (by decide)),
    if_neg (hne _ (by decide)), if_neg hto, if_neg hfrom]

/-- A straight chunk has an effect. -/
theorem does_chunk {t : Chunk} (h : Straight t) : Does op [t]
    (runChunk op t) := by
  constructor
  · intro s alt cond hc
    rw [exec_one]
    cases t with
    | data d =>
      rw [step, State.executing, if_pos hc]
      rfl
    | ref code r =>
      rw [step, State.executing, if_pos hc]
      rfl
    | op code => rw [step_ordinary h, State.executing, if_pos hc, runChunk]
  · intro s alt cond hc
    rw [exec_one]
    cases t with
    | data d =>
      rw [step, State.executing, hc]
      rfl
    | ref code r =>
      rw [step, State.executing, hc]
      rfl
    | op code =>
      rw [step_ordinary h, State.executing, hc]
      rfl

theorem does_line (h : ∀ t ∈ ts, Straight t) : Does op ts (line op ts) := by
  induction ts with
  | nil => exact Does.nil
  | cons t ts ih =>
    rw [List.forall_mem_cons] at h
    exact (does_chunk h.1).append (ih h.2)

/-- Assembled code computes what its chunks do. -/
theorem run_does (hts : ∀ t ∈ ts, t.Ok) (h : Does op ts f) (s : List Bytes) :
    run op (assembleCode ts) s = f s := by
  rw [run, readCode_assemble hts (Nat.le_refl _)]
  show (exec op ts ⟨s, [], []⟩).bind _ = f s
  rw [h.taken s [] [] rfl]
  cases f s <;> rfl

/-- A part with an effect accepts when it leaves a truthy top. -/
theorem accepts_does (hts : ∀ t ∈ ts, t.Ok) (h : Does op ts f)
    (s : List Bytes) :
    Accepts op (assembleCode ts) s ↔ ∃ top rest, f s = some (top :: rest) ∧
    truthy top = true := by
  rw [Accepts, run_does hts h]

/-- Only the meaning of the opcodes in the code matters. -/
theorem line_congr {op' : OpSem}
    (h : ∀ code, .op code ∈ ts → op code = op' code) (s : List Bytes) :
    line op ts s = line op' ts s := by
  induction ts generalizing s with
  | nil => rfl
  | cons t ts ih =>
    have hhead : runChunk op t s = runChunk op' t s := by
      cases t with
      | op code => exact congrFun (h code List.mem_cons_self) s
      | data d => rfl
      | ref code r => rfl
    rw [line, line, hhead]
    cases runChunk op' t s with
    | none => rfl
    | some s' =>
      exact ih (fun code hmem => h code (List.mem_cons_of_mem _ hmem)) s'

/-! ## Code one knows nothing of -/

/-- How many conditionals are open behind the code, if `d` are open before it;
`none` where one is closed that is not open. -/
def nesting : List Chunk → Nat → Option Nat
  | [], d => some d
  | .op code :: ts, d =>
    if code = 0x63 ∨ code = 0x64 then nesting ts (d + 1)
    else if code = 0x67 then if d = 0 then none else nesting ts d
    else if code = 0x68 then if d = 0 then none else nesting ts (d - 1)
    else nesting ts d
  | _ :: ts, d => nesting ts d

/-- `d` conditionals are open on top of those in `lo`. -/
def Framed (lo : List Bool) (d : Nat) (m : State) : Prop :=
  ∃ hi, m.cond = hi ++ lo ∧ hi.length = d

/-- The stacks are as they were. -/
def Idle (m m' : State) : Prop := m'.stack = m.stack ∧ m'.alt = m.alt

section Frames

variable {lo : List Bool} {d d' : Nat} {code : UInt8}

/-- Under a branch that is off nothing executes. -/
theorem Framed.not_executing (h : Framed lo d m) (hlo : lo.all id = false) :
    m.executing = false := by
  obtain ⟨hi, hcond, -⟩ := h
  rw [State.executing, hcond, List.all_append, hlo, Bool.and_false]

/-- Opening a branch goes one deeper. -/
theorem Framed.openBranch {wanted : Bool} (hm : Framed lo d m)
    (h : openBranch wanted m = some m') :
    Framed lo (d + 1) m' ∧ (lo.all id = false → Idle m m') := by
  obtain ⟨hi, hcond, hlen⟩ := hm
  unfold Machine.openBranch at h
  split at h
  · next hrun =>
    split at h
    · next x s hs =>
      cases h
      refine ⟨⟨(truthy x == wanted) :: hi, congrArg _ hcond, congrArg _ hlen⟩,
        fun hlo => ?_⟩
      rw [Framed.not_executing ⟨hi, hcond, hlen⟩ hlo] at hrun
      cases hrun
    · cases h
  · cases h
    exact ⟨⟨false :: hi, congrArg _ hcond, congrArg _ hlen⟩,
      fun _ => ⟨rfl, rfl⟩⟩

/-- Flipping stays at its depth. -/
theorem Framed.flipBranch (hm : Framed lo d m) (hd : d ≠ 0)
    (h : flipBranch m = some m') :
    Framed lo d m' ∧ Idle m m' := by
  obtain ⟨hi, hcond, hlen⟩ := hm
  cases hi with
  | nil => exact absurd hlen.symm hd
  | cons b hi =>
    unfold Machine.flipBranch at h
    rw [hcond] at h
    cases h
    exact ⟨⟨(!b) :: hi, rfl, hlen⟩, rfl, rfl⟩

theorem Framed.closeBranch (hm : Framed lo d m) (hd : d ≠ 0)
    (h : closeBranch m = some m') :
    Framed lo (d - 1) m' ∧ Idle m m' := by
  obtain ⟨hi, hcond, hlen⟩ := hm
  cases hi with
  | nil => exact absurd hlen.symm hd
  | cons b hi =>
    unfold Machine.closeBranch at h
    rw [hcond] at h
    cases h
    refine ⟨⟨hi, rfl, ?_⟩, rfl, rfl⟩
    rw [← hlen, List.length_cons, Nat.add_sub_cancel]

/-- An opcode that is no conditional leaves the conditionals as they are, and in
a branch that is not taken the stacks too. -/
theorem step_plain (hcode : ¬ (0x63 ≤ code ∧ code ≤ 0x68))
    (h : step op m (.op code) = some m') :
    m'.cond = m.cond ∧ (m.executing = false → Idle m m') := by
  have hne : ∀ c : UInt8, 0x63 ≤ c ∧ c ≤ 0x68 → code ≠ c :=
    fun c hc heq => hcode (heq ▸ hc)
  rw [step, if_neg (hne _ (by decide)), if_neg (hne _ (by decide)),
    if_neg (not_or.mpr ⟨hne _ (by decide), hne _ (by decide)⟩),
      if_neg (hne _ (by decide)),
    if_neg (hne _ (by decide))] at h
  by_cases hrun : m.executing = true
  · rw [if_pos hrun] at h
    refine ⟨?_, fun hno => absurd hrun (Bool.eq_false_iff.mp hno)⟩
    split at h
    · unfold toAlt at h
      split at h
      · cases h
        rfl
      · cases h
    · split at h
      · unfold fromAlt at h
        split at h
        · cases h
          rfl
        · cases h
      · obtain ⟨s, -, rfl⟩ := Option.map_eq_some_iff.mp h
        rfl
  · rw [if_neg hrun] at h
    cases h
    exact ⟨rfl, fun _ => ⟨rfl, rfl⟩⟩

/-- A push leaves the branches alone. -/
theorem step_push {t : Chunk} (ht : ∀ code, t ≠ .op code)
    (h : step op m t = some m') :
    m'.cond = m.cond ∧ (m.executing = false → Idle m m') := by
  by_cases hrun : m.executing = true
  · refine ⟨?_, fun hno => absurd hrun (Bool.eq_false_iff.mp hno)⟩
    cases t with
    | op code => exact absurd rfl (ht code)
    | data x =>
      cases h
      rw [if_pos hrun]
    | ref code r =>
      cases h
      rw [if_pos hrun]
  · have hsame : m' = m := by
      cases t with
      | op code => exact absurd rfl (ht code)
      | data x =>
        cases h
        rw [if_neg hrun]
      | ref code r =>
        cases h
        rw [if_neg hrun]
    rw [hsame]
    exact ⟨rfl, fun _ => ⟨rfl, rfl⟩⟩

theorem Framed.same (hm : Framed lo d m)
    (h : m'.cond = m.cond ∧ (m.executing = false → Idle m m')) :
    Framed lo d m' ∧ (lo.all id = false → Idle m m') := by
  refine ⟨?_, fun hlo => h.2 (hm.not_executing hlo)⟩
  obtain ⟨hi, hcond, hlen⟩ := hm
  exact ⟨hi, h.1.trans hcond, hlen⟩

/-- One chunk keeps count of the conditionals that are open, and leaves the
older ones alone. -/
theorem Framed.step {t : Chunk} (h : nesting (t :: ts) d = some d')
    (hm : Framed lo d m)
    (hstep : step op m t = some m') :
    ∃ d₁, Framed lo d₁ m' ∧ nesting ts d₁ = some d' ∧
    (lo.all id = false → Idle m m') := by
  cases t with
  | data x =>
    obtain ⟨hframed, hidle⟩ :=
      hm.same (step_push (fun _ => Chunk.noConfusion) hstep)
    exact ⟨d, hframed, h, hidle⟩
  | ref code r =>
    obtain ⟨hframed, hidle⟩ :=
      hm.same (step_push (fun _ => Chunk.noConfusion) hstep)
    exact ⟨d, hframed, h, hidle⟩
  | op code =>
    rw [nesting] at h
    -- the four branching opcodes move the frame, all others stay in it
    by_cases hif : code = 0x63 ∨ code = 0x64
    · rw [if_pos hif] at h
      have hopen : Framed lo (d + 1) m' ∧ (lo.all id = false → Idle m m') := by
        rcases hif with rfl | rfl
        · exact @Framed.openBranch _ _ _ _ true hm hstep
        · exact @Framed.openBranch _ _ _ _ false hm hstep
      exact ⟨d + 1, hopen.1, h, hopen.2⟩
    · rw [if_neg hif] at h
      by_cases helse : code = 0x67
      · subst helse
        rw [if_pos rfl] at h
        split at h
        · cases h
        · next hd =>
          obtain ⟨hframed, hidle⟩ := hm.flipBranch hd hstep
          exact ⟨d, hframed, h, fun _ => hidle⟩
      · rw [if_neg helse] at h
        by_cases hend : code = 0x68
        · subst hend
          rw [if_pos rfl] at h
          split at h
          · cases h
          · next hd =>
            obtain ⟨hframed, hidle⟩ := hm.closeBranch hd hstep
            exact ⟨d - 1, hframed, h, fun _ => hidle⟩
        · rw [if_neg hend] at h
          by_cases hver : code = 0x65 ∨ code = 0x66
          · rcases hver with rfl | rfl <;> cases hstep
          · have hplain : ¬ (0x63 ≤ code ∧ code ≤ 0x68) := by
              intro hc
              have hnat : 0x63 ≤ code.toNat ∧ code.toNat ≤ 0x68 := hc
              have hval : ∀ n : UInt8, code ≠ n → code.toNat ≠ n.toNat :=
                  fun n hn heq =>
                hn (UInt8.toNat_inj.mp heq)
              have h63 := hval 0x63 (fun hc => hif (.inl hc))
              have h64 := hval 0x64 (fun hc => hif (.inr hc))
              have h65 := hval 0x65 (fun hc => hver (.inl hc))
              have h66 := hval 0x66 (fun hc => hver (.inr hc))
              have h67 := hval 0x67 helse
              have h68 := hval 0x68 hend
              simp only [UInt8.reduceToNat] at h63 h64 h65 h66 h67 h68
              omega
            obtain ⟨hframed, hidle⟩ := hm.same (step_plain hplain hstep)
            exact ⟨d, hframed, h, hidle⟩

/-- **Balanced code leaves the conditionals around it alone**, and in a branch
that is not taken the stacks too. -/
theorem exec_framed (h : nesting ts d = some d') (hm : Framed lo d m)
    (hexec : exec op ts m = some m') :
    Framed lo d' m' ∧ (lo.all id = false → Idle m m') := by
  induction ts generalizing m d with
  | nil =>
    cases hexec
    cases h
    exact ⟨hm, fun _ => ⟨rfl, rfl⟩⟩
  | cons t ts ih =>
    rw [exec_cons] at hexec
    obtain ⟨m₁, hstep, hexec⟩ := Option.bind_eq_some_iff.mp hexec
    obtain ⟨d₁, hframed, hnest, hidle⟩ := hm.step h hstep
    obtain ⟨hend, hidle'⟩ := ih hnest hframed hexec
    refine ⟨hend, fun hlo => ?_⟩
    obtain ⟨hs, ha⟩ := hidle hlo
    obtain ⟨hs', ha'⟩ := hidle' hlo
    exact ⟨hs'.trans hs, ha'.trans ha⟩

/-- Code whose conditionals are its own. -/
def Balanced (ts : List Chunk) : Prop := nesting ts 0 = some 0

instance (ts : List Chunk) : Decidable (Balanced ts) :=
  inferInstanceAs (Decidable (_ = _))

theorem nesting_append (a b : List Chunk) :
    nesting (a ++ b) d = (nesting a d).bind (nesting b) := by
  induction a generalizing d with
  | nil => rfl
  | cons t a ih =>
    rw [List.cons_append]
    cases t with
    | data x => exact ih
    | ref code r => exact ih
    | op code =>
      rw [nesting, nesting]
      split
      · exact ih
      · split
        · split
          · rfl
          · exact ih
        · split
          · split
            · rfl
            · exact ih
          · exact ih

/-- Balanced parts are balanced together. -/
theorem Balanced.append (ha : Balanced a) (hb : Balanced b) :
    Balanced (a ++ b) := by
  unfold Balanced at ha
  rw [Balanced, nesting_append, ha]
  exact hb

/-- Balanced code leaves the branches as they were. -/
theorem Balanced.cond (h : Balanced ts) (hexec : exec op ts m = some m') :
    m'.cond = m.cond := by
  obtain ⟨⟨hi, hcond, hlen⟩, -⟩ := exec_framed h ⟨[], rfl, rfl⟩ hexec
  rw [hcond, List.eq_nil_of_length_eq_zero hlen, List.nil_append]

/-- In a branch that is off it does nothing. -/
theorem Balanced.idle (h : Balanced ts) (hexec : exec op ts m = some m')
    (hrun : m.executing = false) :
    m' = m := by
  have hcond := h.cond hexec
  obtain ⟨-, hidle⟩ := exec_framed h ⟨[], rfl, rfl⟩ hexec
  obtain ⟨hs, ha⟩ := hidle hrun
  obtain ⟨s, alt, cond⟩ := m
  obtain ⟨s', alt', cond'⟩ := m'
  exact State.mk.injEq _ _ _ _ _ _ ▸ ⟨hs, ha, hcond⟩

/-- A conditional runs one of its branches. -/
theorem exec_ifElse (ha : Balanced a) (hb : Balanced b)
    (hrun : m.executing = true)
    (hexec : exec op ([.op 0x63] ++ a ++
      ([.op 0x67] ++ b ++ [.op 0x68])) m = some m') :
    ∃ x s m₁, m.stack = x :: s ∧ m'.stack = m₁.stack ∧
      exec op (if truthy x then a else b) ⟨s, m.alt,
        true :: m.cond⟩ = some m₁ := by
  rw [exec_append, exec_append] at hexec
  obtain ⟨m₂, hexec, hrest⟩ := Option.bind_eq_some_iff.mp hexec
  obtain ⟨m₁, hif, hexec⟩ := Option.bind_eq_some_iff.mp hexec
  rw [exec_append, exec_append] at hrest
  obtain ⟨m₄, hrest, hend⟩ := Option.bind_eq_some_iff.mp hrest
  obtain ⟨m₃, hflip, hexec'⟩ := Option.bind_eq_some_iff.mp hrest
  rw [exec_one] at hif hflip hend
  have hopen : openBranch true m = some m₁ := hif
  have hflipped : flipBranch m₂ = some m₃ := hflip
  have hclosed : closeBranch m₄ = some m' := hend
  unfold openBranch at hopen
  rw [if_pos hrun] at hopen
  -- the condition is popped first, so an empty stack fails
  cases hs : m.stack with
  | nil =>
    rw [hs] at hopen
    cases hopen
  | cons x s =>
    rw [hs] at hopen
    cases hopen
    have hcond := ha.cond hexec
    unfold flipBranch at hflipped
    rw [hcond] at hflipped
    cases hflipped
    have hcond' := hb.cond hexec'
    have hstack : m'.stack = m₄.stack := by
      unfold closeBranch at hclosed
      rw [hcond'] at hclosed
      cases hclosed
      rfl
    by_cases hx : truthy x = true
    · have htrue : (truthy x == true) = true := beq_iff_eq.mpr hx
      rw [htrue] at hexec hexec'
      have hidle := hb.idle hexec' (all_cons_false _)
      refine ⟨x, s, m₂, rfl, ?_, ?_⟩
      · rw [hstack, hidle]
      · rw [if_pos hx]
        exact hexec
    · have hfalse : (truthy x == true) = false := beq_false_of_ne hx
      rw [hfalse] at hexec hexec'
      have hidle := ha.idle hexec (all_cons_false _)
      rw [hidle] at hexec'
      refine ⟨x, s, m₄, rfl, hstack, ?_⟩
      rw [if_neg hx]
      exact hexec'

end Frames

/-- Executed, the code lets a run through only if `Q`. -/
def Ensures (op : OpSem) (ts : List Chunk) (Q : Prop) : Prop :=
  ∀ m m', m.executing = true → exec op ts m = some m' → Q

section Ensures

variable {Q : Prop}

/-- What an effect establishes, the code ensures. -/
theorem Does.ensures (h : Does op ts f) (hf : ∀ s s', f s = some s' → Q) :
    Ensures op ts Q := by
  intro m m' hrun hexec
  rw [h.taken m.stack m.alt m.cond hrun] at hexec
  obtain ⟨s', hs, -⟩ := Option.map_eq_some_iff.mp hexec
  exact hf _ _ hs

/-- Balanced code in front, and any code behind. -/
theorem Ensures.within (ha : Balanced a) (h : Ensures op ts Q)
    (b : List Chunk) : Ensures op (a ++ ts ++ b) Q := by
  intro m m' hrun hexec
  rw [exec_append, exec_append] at hexec
  obtain ⟨m₂, hexec, -⟩ := Option.bind_eq_some_iff.mp hexec
  obtain ⟨m₁, hfront, hexec⟩ := Option.bind_eq_some_iff.mp hexec
  refine h m₁ m₂ ?_ hexec
  rw [State.executing, ha.cond hfront]
  exact hrun

/-- Both branches of a conditional. -/
theorem Ensures.ifElse (hbal : Balanced a) (ha : Ensures op a Q)
    (hb : Ensures op b Q) :
    Ensures op ([.op 0x63] ++ a ++ ([.op 0x67] ++ b ++ [.op 0x68])) Q := by
  intro m m' hrun hexec
  rw [exec_append, exec_append] at hexec
  obtain ⟨m₂, hexec, hrest⟩ := Option.bind_eq_some_iff.mp hexec
  obtain ⟨m₁, hif, hexec⟩ := Option.bind_eq_some_iff.mp hexec
  rw [exec_one] at hif
  have hopen : openBranch true m = some m₁ := hif
  unfold openBranch at hopen
  rw [if_pos hrun] at hopen
  -- only the side that is taken has to ensure it: the other leaves the stack
  -- alone
  cases hs : m.stack with
  | nil =>
    rw [hs] at hopen
    cases hopen
  | cons x s =>
    rw [hs] at hopen
    cases hopen
    by_cases hx : truthy x = true
    · refine ha _ _ ?_ hexec
      rw [hx]
      exact all_cons_true hrun
    · rw [exec_append, exec_append] at hrest
      obtain ⟨m₄, hrest, -⟩ := Option.bind_eq_some_iff.mp hrest
      obtain ⟨m₃, hflip, hexec'⟩ := Option.bind_eq_some_iff.mp hrest
      rw [exec_one] at hflip
      have hcond := hbal.cond hexec
      have hflipped : flipBranch m₂ = some m₃ := hflip
      unfold flipBranch at hflipped
      rw [hcond] at hflipped
      cases hflipped
      refine hb _ _ ?_ hexec'
      have hfalse : (truthy x == true) = false := beq_false_of_ne hx
      rw [hfalse]
      exact all_cons_true hrun

end Ensures

end Machine

end Pyrxd.Lib
