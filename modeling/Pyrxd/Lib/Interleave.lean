import Mathlib.Data.List.Count
import Mathlib.Logic.Function.Basic
import Pyrxd.Lib.Prog

/-!
# Many method bodies at once

A `Pool` is a family of objects, each with its own field and at most one body in
flight (an object's methods hold its lock), over one shared service. The
scheduler picks any object at any time; a call is *issued* and later *answered*,
and anything may happen in between: other objects move, the service's state
drifts under outside clients, the object itself is torn down and comes back with
any field. The log keeps both ends of each call.

The result is the pattern of a one-shot permit: the service grants a key at most
once (`Grants`), a body uses a key only after it was itself granted that key,
and no body uses twice (`OnePermit`). Then over any run each key is used at most
once, by whoever was granted it, and after the grant (`reachable_once`).
-/

namespace Pyrxd.Lib

/-- A body in flight: what is left of it, the events of this invocation so far,
and whether its next call is already issued. -/
structure Active (Op Res σ ε α : Type) where
  tag : Nat
  body : Prog Op Res σ ε α
  trace : List (Event Op Res σ ε)
  waiting : Bool

/-- One end of a call: `answer = none` is its start. `store` is the service at
that moment, before the answer takes effect. -/
structure Entry (Op Res ε St : Type) where
  tag : Nat
  op : Op
  answer : Option (Except ε Res)
  store : St

structure Pool (ι Op Res σ ε α St : Type) where
  store : St
  field : ι → σ
  active : ι → Option (Active Op Res σ ε α)
  next : Nat
  log : List (Entry Op Res ε St)

namespace Pool

variable {ι Op Res σ ε α St κ : Type}

/-- Nothing has run yet. -/
def start (store : St) (field : ι → σ) : Pool ι Op Res σ ε α St :=
  ⟨store, field, fun _ => none, 0, []⟩

/-- Object `i` goes on as `a`. -/
def proceed [DecidableEq ι] (pool : Pool ι Op Res σ ε α St) (i : ι)
    (a : Option (Active Op Res σ ε α)) :
    Pool ι Op Res σ ε α St :=
  { pool with active := Function.update pool.active i a }

/-- Object `i` is asked to run `p`, under the next tag. -/
def request [DecidableEq ι] (pool : Pool ι Op Res σ ε α St) (i : ι)
    (p : Prog Op Res σ ε α) :
    Pool ι Op Res σ ε α St :=
  { pool.proceed i (some ⟨pool.next, p, [], false⟩) with next := pool.next + 1 }

/-- One move of the scheduler. `startable` says which bodies an object may be
asked to run, `serve` how the service may answer, `drift` what outside clients
may do to it. -/
inductive Step [DecidableEq ι] (startable : ι → Prog Op Res σ ε α → Prop)
    (serve : St → Op → Except ε Res → St → Prop) (drift : St → St → Prop) :
    Pool ι Op Res σ ε α St → Pool ι Op Res σ ε α St → Prop where
  | invoke {pool} {i p} (hidle : pool.active i = none) (hp : startable i p) :
    Step startable serve drift pool (pool.request i p)
  | get {pool} {i n k t} (h : pool.active i = some ⟨n, .get k, t, false⟩) :
    Step startable serve drift pool
      (pool.proceed i (some ⟨n, k (pool.field i), t, false⟩))
  | put {pool} {i n s k t} (h : pool.active i = some ⟨n, .put s k, t, false⟩) :
    Step startable serve drift pool
      { pool.proceed i (some ⟨n, k, t ++ [.write (pool.field i) s], false⟩) with
        field := Function.update pool.field i s }
  | issue {pool} {i n op k t}
      (h : pool.active i = some ⟨n, .call op k, t, false⟩) :
    Step startable serve drift pool
      { pool.proceed i (some ⟨n, .call op k, t, true⟩) with
        log := pool.log ++ [⟨n, op, none, pool.store⟩] }
  | answer {pool} {i n op k t r store'}
      (h : pool.active i = some ⟨n, .call op k, t, true⟩)
      (hserve : serve pool.store op r store') :
    Step startable serve drift pool
      { pool.proceed i (some ⟨n, k r,
        t ++ [.call (pool.field i) op r], false⟩) with
        store := store', log := pool.log ++ [⟨n, op, some r, pool.store⟩] }
  | finish {pool} {i n p t} (h : pool.active i = some ⟨n, p, t, false⟩)
      (hp : (∃ a, p = .ret a) ∨ ∃ e, p = .raise e) :
    Step startable serve drift pool (pool.proceed i none)
  | restart {pool} {i} (s : σ) :
    Step startable serve drift pool
      { pool.proceed i none with field := Function.update pool.field i s }
  | outside {pool} {store'} (h : drift pool.store store') :
    Step startable serve drift pool { pool with store := store' }

/-! ## One-shot permits -/

/-- What the service is asked to do: an answer that grants `k` is given at most
once, and a granted key stays taken. -/
structure Grants (serve : St → Op → Except ε Res → St → Prop)
    (drift : St → St → Prop)
    (grant : Op → Except ε Res → Option κ) (Taken : St → κ → Prop) : Prop where
  fresh : ∀ {st op r st' k}, serve st op r st' → grant op r = some k →
    ¬ Taken st k ∧ Taken st' k
  keeps : ∀ {st op r st' k}, serve st op r st' → Taken st k → Taken st' k
  keepsOutside : ∀ {st st' k}, drift st st' → Taken st k → Taken st' k

/-- The use an event makes of a key. -/
def eventUse (use : Op → Option κ) : Event Op Res σ ε → Option κ
  | .call _ op _ => use op
  | .write _ _ => none

/-- What a body has to keep to: it uses `k` only when it was granted `k` before,
and has used nothing yet. -/
def OnePermit (grant : Op → Except ε Res → Option κ) (use : Op → Option κ)
    (pre : List (Event Op Res σ ε)) (e : Event Op Res σ ε) : Prop :=
  ∀ k, eventUse use e = some k →
    (∃ s op r, .call s op r ∈ pre ∧ grant op r = some k) ∧
      ∀ u ∈ pre, eventUse use u = none

/-- Not a use at all. -/
def Unused (use : Op → Option κ) (_pre : List (Event Op Res σ ε))
    (e : Event Op Res σ ε) : Prop :=
  eventUse use e = none

/-- A part of a body that uses nothing, before the use. -/
theorem meets_unused {grant : Op → Except ε Res → Option κ}
    {use : Op → Option κ} {β : Type}
    {p : Prog Op Res σ ε β}
    {Q : Except ε β → σ → List (Event Op Res σ ε) → Prop} {s : σ}
    {t : List (Event Op Res σ ε)} (hp : Prog.Quiet (Unused use) p)
    (ht : Prog.Obeys (Unused use) t)
    (hQ : ∀ r t', Prog.Obeys (Unused use) t' → Q r s t') :
    Prog.Meets (OnePermit grant use) Q p s t := by
  refine Prog.meets_weaken (fun t e he k hk => ?_) p
    (Prog.meets_mono ?_ p (Prog.meets_obeys p ht (hp s t)))
  · rw [he] at hk
    cases hk
  · rintro r s' t' ⟨⟨rfl, -⟩, hobeys⟩
    exact hQ r t' hobeys

variable {startable : ι → Prog Op Res σ ε α → Prop}
  {serve : St → Op → Except ε Res → St → Prop} {drift : St → St → Prop}
  {grant : Op → Except ε Res → Option κ} {use : Op → Option κ}
  {Taken : St → κ → Prop}

/-- The entry is the start of a call that uses `k`. -/
def Entry.Uses (use : Op → Option κ) (k : κ) (e : Entry Op Res ε St) : Prop :=
  e.answer.isNone = true ∧ use e.op = some k

instance [DecidableEq κ] (k : κ) (e : Entry Op Res ε St) :
    Decidable (Entry.Uses use k e) :=
  inferInstanceAs (Decidable (_ ∧ _))

/-- The entry is an answer that grants `k`. -/
def Entry.Gives (grant : Op → Except ε Res → Option κ) (k : κ)
    (e : Entry Op Res ε St) : Prop :=
  ∃ r, e.answer = some r ∧ grant e.op r = some k

/-! ## The invariant

`Flight` is about the bodies in flight, `Ledger` about the log and the service. -/

/-- The body in flight and what the log says about its invocation. -/
structure Tracked (grant : Op → Except ε Res → Option κ) (use : Op → Option κ)
    (pool : Pool ι Op Res σ ε α St) (i : ι)
    (a : Active Op Res σ ε α) : Prop where
  tag_lt : a.tag < pool.next
  meets : Prog.Meets (OnePermit grant use) (fun _ _ _ => True) a.body
    (pool.field i) a.trace
  /-- A call in the trace was answered under this tag. -/
  answered : ∀ s op r, .call s op r ∈ a.trace →
    ∃ e ∈ pool.log, e.tag = a.tag ∧ e.op = op ∧ e.answer = some r
  /-- A call issued under this tag is in the trace, or is the one waited for. -/
  issued : ∀ e ∈ pool.log, e.tag = a.tag → e.answer = none →
    (∃ s r, .call s e.op r ∈ a.trace) ∨
      a.waiting = true ∧ ∃ k, a.body = .call e.op k

/-- Invocations in flight are tracked and told apart by their tags. -/
structure Flight (grant : Op → Except ε Res → Option κ) (use : Op → Option κ)
    (pool : Pool ι Op Res σ ε α St) : Prop where
  tracked : ∀ i a, pool.active i = some a → Tracked grant use pool i a
  distinct : ∀ i j a b, pool.active i = some a → pool.active j = some b →
    a.tag = b.tag → i = j
  tags : ∀ e ∈ pool.log, e.tag < pool.next

/-- Each key is granted to one invocation, and used at most once, after the
grant. -/
structure Ledger [DecidableEq κ] (grant : Op → Except ε Res → Option κ)
    (use : Op → Option κ)
    (Taken : St → κ → Prop) (store : St)
    (log : List (Entry Op Res ε St)) : Prop where
  taken : ∀ e ∈ log, ∀ k, Entry.Gives grant k e → Taken store k
  owner : ∀ e ∈ log, ∀ e' ∈ log, ∀ k, Entry.Gives grant k e →
    Entry.Gives grant k e' →
    e.tag = e'.tag
  backed : ∀ pre e post, log = pre ++ e :: post → ∀ k, Entry.Uses use k e →
    Taken e.store k ∧ ∃ g ∈ pre, g.tag = e.tag ∧ Entry.Gives grant k g
  once : ∀ k, log.countP (fun e => Entry.Uses use k e) ≤ 1

/-- Nothing that happens elsewhere untracks a body. -/
theorem Tracked.frame {pool pool' : Pool ι Op Res σ ε α St} {i : ι}
    {a : Active Op Res σ ε α}
    {es : List (Entry Op Res ε St)} (h : Tracked grant use pool i a)
    (hfield : pool'.field i = pool.field i) (hnext : pool.next ≤ pool'.next)
    (hlog : pool'.log = pool.log ++ es) (hes : ∀ e ∈ es, a.tag ≠ e.tag) :
    Tracked grant use pool' i a where
  tag_lt := Nat.lt_of_lt_of_le h.tag_lt hnext
  meets := hfield ▸ h.meets
  answered s op r hmem := by
    obtain ⟨e, he, hrest⟩ := h.answered s op r hmem
    exact ⟨e, by rw [hlog]; exact List.mem_append_left _ he, hrest⟩
  issued e he htag hans := by
    rw [hlog] at he
    rcases List.mem_append.mp he with he | he
    · exact h.issued e he htag hans
    · exact absurd htag.symm (hes e he)

/-- Object `i` moves, the rest stands still. -/
theorem Flight.move [DecidableEq ι] {pool pool' : Pool ι Op Res σ ε α St}
    {es : List (Entry Op Res ε St)}
    (h : Flight grant use pool) (i : ι) (a' : Option (Active Op Res σ ε α))
    (hact : pool'.active = Function.update pool.active i a')
    (hfield : ∀ j, j ≠ i → pool'.field j = pool.field j)
    (hnext : pool.next ≤ pool'.next)
    (hlog : pool'.log = pool.log ++ es) (hlt : ∀ e ∈ es, e.tag < pool'.next)
    (hes : ∀ e ∈ es, ∀ j b, j ≠ i → pool.active j = some b → b.tag ≠ e.tag)
    (hnew : ∀ a, a' = some a → Tracked grant use pool' i a ∧
      ∀ j b, j ≠ i → pool.active j = some b → b.tag ≠ a.tag) :
    Flight grant use pool' := by
  -- each pair of bodies: both elsewhere, or one of them the new one at `i`
  have hi : pool'.active i = a' := by rw [hact]; exact Function.update_self ..
  have hj : ∀ j, j ≠ i → pool'.active j = pool.active j := by
    intro j hne
    rw [hact]
    exact Function.update_of_ne hne ..
  refine ⟨fun j b hb => ?_, fun j k b d hb hd htag => ?_, fun e he => ?_⟩
  · by_cases hne : j = i
    · subst hne
      exact (hnew b (hi.symm.trans hb)).1
    · rw [hj j hne] at hb
      exact (h.tracked j b hb).frame (hfield j hne) hnext hlog fun e he =>
        hes e he j b hne hb
  · by_cases hji : j = i <;> by_cases hki : k = i
    · rw [hji, hki]
    · subst hji
      rw [hj k hki] at hd
      exact absurd htag.symm ((hnew b (hi.symm.trans hb)).2 k d hki hd)
    · subst hki
      rw [hj j hji] at hb
      exact absurd htag ((hnew d (hi.symm.trans hd)).2 j b hji hb)
    · rw [hj j hji] at hb
      rw [hj k hki] at hd
      exact h.distinct j k b d hb hd htag
  · rw [hlog] at he
    rcases List.mem_append.mp he with he | he
    · exact Nat.lt_of_lt_of_le (h.tags e he) hnext
    · exact hlt e he

/-- The service's view may grow under the log. -/
theorem Ledger.grow [DecidableEq κ] {st st' : St}
    {log : List (Entry Op Res ε St)}
    (h : Ledger grant use Taken st log)
    (hgrow : ∀ k, Taken st k → Taken st' k) :
    Ledger grant use Taken st' log :=
  { h with taken := fun e he k hk => hgrow k (h.taken e he k hk) }

/-- A call may be issued by whoever holds the grant for the key it uses, and has
not used it. -/
theorem Ledger.issue [DecidableEq κ] {st : St} {log : List (Entry Op Res ε St)}
    {n : Nat} {op : Op}
    (h : Ledger grant use Taken st log)
    (hown : ∀ k, use op = some k →
      (∃ g ∈ log, g.tag = n ∧ Entry.Gives grant k g) ∧
      ∀ e ∈ log, e.tag = n → ¬ Entry.Uses use k e) :
    Ledger grant use Taken st (log ++ [⟨n, op, none, st⟩]) := by
  have hold : ∀ e ∈ log ++ [(⟨n, op, none, st⟩ : Entry Op Res ε St)], ∀ k,
      Entry.Gives grant k e → e ∈ log := by
    rintro e he k ⟨r, hr, -⟩
    rcases List.mem_append.mp he with he | he
    · exact he
    · rw [List.mem_singleton.mp he] at hr
      cases hr
  refine ⟨fun e he k hk => h.taken e (hold e he k hk) k hk,
    fun e he e' he' k hk hk' =>
      h.owner e (hold e he k hk) e' (hold e' he' k hk') k hk hk',
    fun pre e post hsplit k hk => ?_, fun k => ?_⟩
  · rcases Prog.snoc_split hsplit with ⟨rfl, rfl⟩ | ⟨post', h'⟩
    · obtain ⟨⟨g, hg, htag, hgive⟩, -⟩ := hown k hk.2
      exact ⟨h.taken g hg k hgive, g, hg, htag, hgive⟩
    · exact h.backed pre e post' h' k hk
  · rw [List.countP_append, List.countP_singleton]
    split
    · next hk =>
      obtain ⟨⟨g, hg, htag, hgive⟩, hnot⟩ := hown k (of_decide_eq_true hk).2
      -- an earlier use would be backed by a grant to its own tag, which is ours
      have hzero : log.countP (fun e => Entry.Uses use k e) = 0 := by
        rw [List.countP_eq_zero]
        intro e he huse
        have huse := of_decide_eq_true huse
        obtain ⟨pre, post, hsplit⟩ := List.append_of_mem he
        obtain ⟨-, g', hg', htag', hgive'⟩ := h.backed pre e post hsplit k huse
        have hmem : g' ∈ log := by rw [hsplit]; exact List.mem_append_left _ hg'
        refine hnot e he ?_ huse
        rw [← htag', ← htag]
        exact h.owner g' hmem g hg k hgive' hgive
      omega
    · exact h.once k

/-- An answer of the service. -/
theorem Ledger.answer [DecidableEq κ] {st st' : St}
    {log : List (Entry Op Res ε St)} {n : Nat}
    {op : Op} {r : Except ε Res} (hserves : Grants serve drift grant Taken)
    (h : Ledger grant use Taken st log) (hserve : serve st op r st') :
    Ledger grant use Taken st' (log ++ [⟨n, op, some r, st⟩]) := by
  have hnew : ∀ k, Entry.Gives grant k (⟨n, op, some r,
      st⟩ : Entry Op Res ε St) →
      ¬ Taken st k ∧ Taken st' k := by
    rintro k ⟨r', hr', hk⟩
    cases hr'
    exact hserves.fresh hserve hk
  refine ⟨fun e he k hk => ?_, fun e he e' he' k hk hk' => ?_,
    fun pre e post hsplit k hk => ?_,
    fun k => ?_⟩
  · rcases List.mem_append.mp he with he | he
    · exact hserves.keeps hserve (h.taken e he k hk)
    · rw [List.mem_singleton.mp he] at hk
      exact (hnew k hk).2
  · -- a key already granted is taken, so the new answer cannot grant it again
    rcases List.mem_append.mp he with he | he <;>
      rcases List.mem_append.mp he' with he' | he'
    · exact h.owner e he e' he' k hk hk'
    · rw [List.mem_singleton.mp he'] at hk'
      exact absurd (h.taken e he k hk) (hnew k hk').1
    · rw [List.mem_singleton.mp he] at hk
      exact absurd (h.taken e' he' k hk') (hnew k hk).1
    · rw [List.mem_singleton.mp he, List.mem_singleton.mp he']
  · rcases Prog.snoc_split hsplit with ⟨rfl, rfl⟩ | ⟨post', h'⟩
    · cases hk.1
    · exact h.backed pre e post' h' k hk
  · rw [List.countP_append, List.countP_singleton]
    split
    · next hk => cases (of_decide_eq_true hk).1
    · exact h.once k

/-! ## Every move keeps it -/

/-- The two halves together. -/
structure Sound [DecidableEq κ] (grant : Op → Except ε Res → Option κ)
    (use : Op → Option κ)
    (Taken : St → κ → Prop) (pool : Pool ι Op Res σ ε α St) : Prop where
  flight : Flight grant use pool
  ledger : Ledger grant use Taken pool.store pool.log

/-- Nothing is taken at the start. -/
theorem start_sound [DecidableEq κ] (store : St) (field : ι → σ) :
    Sound grant use Taken (start store field : Pool ι Op Res σ ε α St) := by
  refine ⟨⟨fun i a h => ?_, fun i j a b h => ?_, fun e h => ?_⟩,
    ⟨fun e h => ?_, fun e h => ?_, fun pre e post h => ?_,
      fun k => Nat.zero_le 1⟩⟩
  · cases h
  · cases h
  · cases h
  · cases h
  · cases h
  · exact absurd h (by simp [start])

/-- Another object's tag is not this one's. -/
theorem Flight.other_tag {pool : Pool ι Op Res σ ε α St}
    (h : Flight grant use pool) {i : ι}
    {a : Active Op Res σ ε α} (hi : pool.active i = some a) (j : ι)
    (b : Active Op Res σ ε α)
    (hne : j ≠ i) (hj : pool.active j = some b) : b.tag ≠ a.tag :=
  fun htag => hne (h.distinct j i b a hj hi htag)

/-- A move of `i` that leaves the log alone. -/
theorem Flight.quiet [DecidableEq ι] {pool pool' : Pool ι Op Res σ ε α St}
    (h : Flight grant use pool) {i : ι} {a : Active Op Res σ ε α}
    (a' : Active Op Res σ ε α)
    (hi : pool.active i = some a) (htag : a'.tag = a.tag)
    (hwait : a.waiting = false)
    (hact : pool'.active = Function.update pool.active i (some a'))
    (hfield : ∀ j, j ≠ i → pool'.field j = pool.field j)
    (hnext : pool'.next = pool.next)
    (hlog : pool'.log = pool.log)
    (hmeets : Prog.Meets (OnePermit grant use) (fun _ _ _ => True) a'.body
      (pool'.field i) a'.trace)
    (htrace : ∀ s op r, .call s op r ∈ a'.trace ↔ .call s op r ∈ a.trace) :
    Flight grant use pool' := by
  refine h.move i (some a') hact hfield (Nat.le_of_eq hnext.symm) (by rw [hlog,
    List.append_nil])
    (fun e he => absurd he (by simp)) (fun e he => absurd he (by simp))
      fun b hb => ?_
  cases hb
  refine ⟨⟨?_, hmeets, fun s op r hmem => ?_, fun e he ht hans => ?_⟩, ?_⟩
  · rw [htag, hnext]
    exact (h.tracked i a hi).tag_lt
  · rw [hlog, htag]
    exact (h.tracked i a hi).answered s op r ((htrace s op r).mp hmem)
  · rw [hlog] at he
    rcases (h.tracked i a hi).issued e he (ht.trans htag) hans with ⟨s, r,
      hmem⟩ | hw
    · exact .inl ⟨s, r, (htrace s e.op r).mpr hmem⟩
    · rw [hwait] at hw
      cases hw.1
  · rw [htag]
    exact h.other_tag hi

/-- A move of `i` that logs one end of a call, under its own tag. -/
theorem Flight.logged [DecidableEq ι] {pool pool' : Pool ι Op Res σ ε α St}
    (h : Flight grant use pool) {i : ι} {a : Active Op Res σ ε α}
    (a' : Active Op Res σ ε α)
    {e : Entry Op Res ε St} (hi : pool.active i = some a)
    (htag : a'.tag = a.tag)
    (hetag : e.tag = a.tag)
    (hact : pool'.active = Function.update pool.active i (some a'))
    (hfield : pool'.field = pool.field) (hnext : pool'.next = pool.next)
    (hlog : pool'.log = pool.log ++ [e]) (hnew : Tracked grant use pool' i a') :
    Flight grant use pool' := by
  refine h.move i (some a') hact (fun j _ => by rw [hfield])
    (Nat.le_of_eq hnext.symm) hlog
    (fun d hd => ?_) (fun d hd j b hj hb => ?_) fun b hb => ?_
  · rw [List.mem_singleton.mp hd, hetag, hnext]
    exact (h.tracked i a hi).tag_lt
  · rw [List.mem_singleton.mp hd, hetag]
    exact h.other_tag hi j b hj hb
  · cases hb
    rw [htag]
    exact ⟨hnew, h.other_tag hi⟩

/-- `i` is done, or is torn down. -/
theorem Flight.leave [DecidableEq ι] {pool pool' : Pool ι Op Res σ ε α St}
    (h : Flight grant use pool) (i : ι)
    (hact : pool'.active = Function.update pool.active i none)
    (hfield : ∀ j, j ≠ i → pool'.field j = pool.field j)
    (hnext : pool'.next = pool.next)
    (hlog : pool'.log = pool.log) : Flight grant use pool' :=
  h.move i none hact hfield (Nat.le_of_eq hnext.symm) (by rw [hlog,
    List.append_nil])
    (fun e he => absurd he (by simp)) (fun e he => absurd he (by simp))
    fun b hb => absurd hb (by simp)

/-- The grant and the clean record a body in flight brings to the call it
issues. -/
theorem Sound.entitled [DecidableEq κ] [Nonempty Res]
    {pool : Pool ι Op Res σ ε α St}
    (h : Sound grant use Taken pool) {i : ι}
    {n : Nat} {op : Op} {k : Except ε Res → Prog Op Res σ ε α}
    {t : List (Event Op Res σ ε)}
    (hi : pool.active i = some ⟨n, .call op k, t, false⟩) (key : κ)
    (hkey : use op = some key) :
    (∃ g ∈ pool.log, g.tag = n ∧ Entry.Gives grant key g) ∧
      ∀ e ∈ pool.log, e.tag = n → ¬ Entry.Uses use key e := by
  have htr := h.flight.tracked i _ hi
  obtain ⟨r⟩ := (inferInstance : Nonempty Res)
  obtain ⟨⟨s, op', r', hmem, hgrant⟩, hclean⟩ := (htr.meets (.ok r)).1 key hkey
  refine ⟨?_, fun e he htag huse => ?_⟩
  · obtain ⟨g, hg, htag, hop, hans⟩ := htr.answered s op' r' hmem
    exact ⟨g, hg, htag, r', hans, hop ▸ hgrant⟩
  · rcases htr.issued e he htag (Option.isNone_iff_eq_none.mp huse.1) with ⟨s',
      r'', hmem'⟩ | hw
    · -- an earlier use under this tag would be in the trace, which the monitor saw clean
      have hnone : use e.op = none := hclean _ hmem'
      rw [huse.2] at hnone
      cases hnone
    · cases hw.1

/-- **Step.** One move of the scheduler, whichever it is. -/
theorem step_sound [DecidableEq ι] [DecidableEq κ] [Nonempty Res]
    {pool pool' : Pool ι Op Res σ ε α St}
    (hserves : Grants serve drift grant Taken)
    (hbodies : ∀ i p s, startable i p →
      Prog.Meets (OnePermit grant use) (fun _ _ _ => True) p s [])
    (hstep : Step startable serve drift pool pool')
    (h : Sound grant use Taken pool) :
    Sound grant use Taken pool' := by
  cases hstep with
  | @invoke i p hidle hp =>
    refine ⟨h.flight.move i (some ⟨pool.next, p, [], false⟩) rfl
      (fun _ _ => rfl) (Nat.le_succ _)
      (List.append_nil _).symm (fun e he => absurd he (by simp))
        (fun e he => absurd he (by simp))
      fun b hb => ?_, h.ledger⟩
    cases hb
    refine ⟨⟨Nat.lt_succ_self _, hbodies i p _ hp,
      fun s op r hmem => absurd hmem (by simp),
      fun e he htag _ => ?_⟩, fun j b _ hj => ?_⟩
    · -- the tag is new, so no entry of the log carries it
      exact absurd htag (Nat.ne_of_lt (h.flight.tags e he))
    · exact Nat.ne_of_lt (h.flight.tracked j b hj).tag_lt
  | @get i n k t hi =>
    exact ⟨h.flight.quiet ⟨n, k (pool.field i), t,
      false⟩ hi rfl rfl rfl (fun _ _ => rfl) rfl rfl
      (h.flight.tracked i _ hi).meets fun _ _ _ => Iff.rfl, h.ledger⟩
  | @put i n s k t hi =>
    refine ⟨h.flight.quiet ⟨n, k, t ++ [.write (pool.field i) s],
      false⟩ hi rfl rfl rfl
      (fun j hj => Function.update_of_ne hj ..) rfl rfl ?_ ?_, h.ledger⟩
    · show Prog.Meets _ _ k (Function.update pool.field i s i) _
      rw [Function.update_self]
      exact (h.flight.tracked i _ hi).meets.2
    · intro s' op r
      simp
  | @issue i n op k t hi =>
    have htr := h.flight.tracked i _ hi
    -- the permit is needed here, when the call starts, not when it is answered
    refine ⟨h.flight.logged ⟨n, .call op k, t, true⟩ hi rfl rfl rfl rfl rfl rfl
      ⟨htr.tag_lt, htr.meets, fun s op' r hmem => ?_, fun e he htag hans => ?_⟩,
      h.ledger.issue (h.entitled hi)⟩
    · obtain ⟨e, he, hrest⟩ := htr.answered s op' r hmem
      exact ⟨e, List.mem_append_left _ he, hrest⟩
    · rcases List.mem_append.mp he with he | he
      · rcases htr.issued e he htag hans with hmem | hw
        · exact .inl hmem
        · cases hw.1
      · rw [List.mem_singleton.mp he]
        exact .inr ⟨rfl, k, rfl⟩
  | @answer i n op k t r store' hi hserve =>
    have htr := h.flight.tracked i _ hi
    refine ⟨h.flight.logged ⟨n, k r, t ++ [Event.call (pool.field i) op r],
      false⟩ hi rfl rfl rfl
      rfl rfl rfl ⟨htr.tag_lt, (htr.meets r).2, fun s op' r' hmem => ?_,
        fun e he htag hans => ?_⟩,
      h.ledger.answer hserves hserve⟩
    · rcases List.mem_append.mp hmem with hmem | hmem
      · obtain ⟨e, he, hrest⟩ := htr.answered s op' r' hmem
        exact ⟨e, List.mem_append_left _ he, hrest⟩
      · cases List.mem_singleton.mp hmem
        exact ⟨_, List.mem_append_right _ (List.mem_singleton_self _),
          rfl, rfl, rfl⟩
    · rcases List.mem_append.mp he with he | he
      · rcases htr.issued e he htag hans with ⟨s, r', hmem⟩ | ⟨-, k', hk'⟩
        · exact .inl ⟨s, r', List.mem_append_left _ hmem⟩
        · -- the call waited for is the one just answered
          cases hk'
          exact .inl ⟨pool.field i, r,
            List.mem_append_right _ (List.mem_singleton_self _)⟩
      · rw [List.mem_singleton.mp he] at hans
        cases hans
  | @finish i n p t hi hp =>
    exact ⟨h.flight.leave i rfl (fun _ _ => rfl) rfl rfl, h.ledger⟩
  | @restart i s =>
    -- the log and the grants in it survive the object; its next body gets a new
    -- tag
    exact ⟨h.flight.leave i rfl (fun j hj => Function.update_of_ne hj ..) rfl
      rfl, h.ledger⟩
  | @outside store' hd =>
    exact ⟨⟨fun i a hi => (h.flight.tracked i a hi).frame rfl (Nat.le_refl _)
      (List.append_nil _).symm
      (fun e he => absurd he (by simp)), h.flight.distinct, h.flight.tags⟩,
      h.ledger.grow fun k => hserves.keepsOutside hd⟩

/-- A pool that some run reaches from `pool`. -/
def Reachable [DecidableEq ι] (startable : ι → Prog Op Res σ ε α → Prop)
    (serve : St → Op → Except ε Res → St → Prop) (drift : St → St → Prop) :
    Pool ι Op Res σ ε α St → Pool ι Op Res σ ε α St → Prop :=
  Relation.ReflTransGen (Step startable serve drift)

/-- **Run.** In every pool that any schedule reaches, each key was used at most
once, and each use came after the grant of that key to the same invocation. -/
theorem reachable_once [DecidableEq ι] [DecidableEq κ] [Nonempty Res]
    {pool : Pool ι Op Res σ ε α St} {store : St} {field : ι → σ}
    (hserves : Grants serve drift grant Taken)
    (hbodies : ∀ i p s, startable i p →
      Prog.Meets (OnePermit grant use) (fun _ _ _ => True) p s [])
    (hrun : Reachable startable serve drift (start store field) pool) :
    Ledger grant use Taken pool.store pool.log := by
  have hsound : Sound grant use Taken pool := by
    induction hrun with
    | refl => exact start_sound store field
    | tail _ hstep ih => exact step_sound hserves hbodies hstep ih
  exact hsound.ledger

/-! ## Playing a schedule -/

/-- The next move of object `i`, with `answerer` for the service. -/
def move [DecidableEq ι] (answerer : St → Op → Except ε Res × St)
    (pool : Pool ι Op Res σ ε α St) (i : ι) : Pool ι Op Res σ ε α St :=
  match pool.active i with
  | none => pool
  | some ⟨n, .get k, t, false⟩ =>
    pool.proceed i (some ⟨n, k (pool.field i), t, false⟩)
  | some ⟨n, .put s k, t, false⟩ =>
    { pool.proceed i (some ⟨n, k, t ++ [.write (pool.field i) s], false⟩) with
      field := Function.update pool.field i s }
  | some ⟨n, .call op k, t, false⟩ =>
    { pool.proceed i (some ⟨n, .call op k, t, true⟩) with
      log := pool.log ++ [⟨n, op, none, pool.store⟩] }
  | some ⟨n, .call op k, t, true⟩ =>
    let (r, store') := answerer pool.store op
    { pool.proceed i (some ⟨n, k r,
        t ++ [.call (pool.field i) op r], false⟩) with
      store := store', log := pool.log ++ [⟨n, op, some r, pool.store⟩] }
  | some ⟨_, .ret _, _, false⟩ => pool.proceed i none
  | some ⟨_, .raise _, _, false⟩ => pool.proceed i none
  | some _ => pool

/-- Let the objects move in the given order. -/
def play [DecidableEq ι] (answerer : St → Op → Except ε Res × St)
    (schedule : List ι)
    (pool : Pool ι Op Res σ ε α St) : Pool ι Op Res σ ε α St :=
  schedule.foldl (move answerer) pool

theorem move_reachable [DecidableEq ι] {answerer : St → Op → Except ε Res × St}
    (h : ∀ st op, serve st op (answerer st op).1 (answerer st op).2)
    (pool : Pool ι Op Res σ ε α St) (i : ι) :
    Reachable startable serve drift pool (move answerer pool i) := by
  unfold move
  split
  · exact .refl
  · next hi => exact .single (.get hi)
  · next hi => exact .single (.put hi)
  · next hi => exact .single (.issue hi)
  · next hi => exact .single (.answer hi (h _ _))
  · next hi => exact .single (.finish hi (.inl ⟨_, rfl⟩))
  · next hi => exact .single (.finish hi (.inr ⟨_, rfl⟩))
  · exact .refl

/-- What is played is a run. -/
theorem play_reachable [DecidableEq ι] {answerer : St → Op → Except ε Res × St}
    (h : ∀ st op, serve st op (answerer st op).1 (answerer st op).2)
    (schedule : List ι)
    (pool : Pool ι Op Res σ ε α St) :
    Reachable startable serve drift pool (play answerer schedule pool) := by
  induction schedule generalizing pool with
  | nil => exact .refl
  | cons i schedule ih =>
    exact (move_reachable h pool i).trans (ih (move answerer pool i))

end Pool

end Pyrxd.Lib
