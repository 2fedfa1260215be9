import ConnectionPool.Proofs.Counts
import ConnectionPool.Proofs.Loop
import ConnectionPool.Proofs.Stretches

/-!
# Brevity

Each stretch of an acquisition is short: it looks at the pool at most as often as it may meet bad
candidates, once more for the candidate that is one too many and once more for a lease that it
drops. A caller goes to sleep only if it has seen nothing but a standstill. So a caller that sleeps
or is pending has met no bad candidate and taken no lease, whatever it has lived through, and takes
one lease in its life at most.
-/

set_option autoImplicit false

namespace ConnectionPool

namespace Event

def busy? : Event → Option Nat
  | examined caller _ _ _ _ | claimed caller _ _ | granted caller _ => some caller
  | connect _ _ | call _ _ _ | returned _ _ _ | shelved _ => none
  | drained _ _ | slept _ | woke _ _ | settled _ _ _ => none

theorem busy_of_traffic (event : Event) (h : event.isTraffic = true) : event.busy? = none := by
  cases event <;> simp_all [isTraffic, busy?]

theorem claimant_of_traffic (event : Event) (h : event.isTraffic = true) :
    event.claimant? = none := by
  cases event <;> simp_all [isTraffic, claimant?]

theorem busy_of_claimant (event : Event) (caller : Nat) (h : event.claimant? = some caller) :
    event.busy? = some caller := by
  cases event <;> simp_all [claimant?, busy?]

end Event

namespace Books

theorem busy_of_mem_claimants {b : Books} {caller : Nat}
    (h : caller ∈ b.view Event.claimant?) : caller ∈ b.view Event.busy? := by
  obtain ⟨event, hm, he⟩ := List.mem_filterMap.mp h
  exact List.mem_filterMap.mpr ⟨event, hm, event.busy_of_claimant caller he⟩

theorem mem_view_note {α : Type} {see : Event → Option α} {event : Event} {b : Books} {a : α}
    (h : a ∈ (b.note event).view see) : see event = some a ∨ a ∈ b.view see := by
  obtain ⟨other, hm, he⟩ := List.mem_filterMap.mp h
  rcases List.mem_cons.mp hm with rfl | hm
  · exact Or.inl he
  · exact Or.inr (List.mem_filterMap.mpr ⟨other, hm, he⟩)

theorem Turn.busy {now caller : Nat} {m m' : Option Entry × Books} (h : Turn now caller m m')
    {other : Nat} (hm : other ∈ m'.2.view Event.busy?) :
    other = caller ∨ other ∈ m.2.view Event.busy? := by
  cases h with
  | pick b e rest hi | connect b hi hr | refuse b => exact Or.inr hm
  | claim b oldest rest hi hf ha hv | drop b oldest rest hi hf ha hv | reject b e =>
    exact (mem_view_note hm).imp_left fun h => (Option.some.inj h).symm

end Books

namespace Pool

variable {σ : Type} [Driver σ] {now : Nat} {r : Request} {p q : Pool σ}

theorem busy_turns {caller : Nat} {m m' : Option Entry × Pool σ} (h : Turns now caller m m')
    {other : Nat} (hm : other ∈ m'.2.books.view Event.busy?) :
    other = caller ∨ other ∈ m.2.books.view Event.busy? := by
  induction h with
  | refl => exact Or.inr hm
  | tail _ ht ih => exact ((turn_books ht).busy hm).elim Or.inl ih

theorem busy_seek (now : Nat) (r : Request) (p : Pool σ) {other : Nat}
    (hm : other ∈ (p.seek now r).2.books.view Event.busy?) :
    other = r.caller ∨ other ∈ p.books.view Event.busy? := by
  have he := seek_ends now r p
  generalize p.seek now r = found at he hm
  obtain ⟨outcome, q⟩ := found
  cases outcome with
  | granted lent =>
    obtain ⟨e, p₁, p₂, ht, hx, hg⟩ := he
    have hq : q = (p₂.grant now r e).2 := congrArg Prod.snd hg
    change other ∈ q.books.view Event.busy? at hm
    rw [hq, books_grant] at hm
    rcases Books.mem_view_note hm with h | hm
    · exact Or.inl (Option.some.inj h).symm
    · rw [examine_books now r.caller e true p₁ p₂ hx] at hm
      rcases Books.mem_view_note hm with h | hm
      · exact Or.inl (Option.some.inj h).symm
      · exact busy_turns ht hm
  | failed error => exact busy_turns he.1 hm
  | saturated r' => exact busy_turns he.1 hm

theorem view_returned {α : Type} {see : Event → Option α}
    (hr : ∀ e lent status, see (.returned e lent status) = none)
    (hs : ∀ e, see (.shelved e) = none) (now : Nat) (e : Entry) (p : Pool σ) :
    (p.takeBack now e).2.books.view see = p.books.view see := by
  have ht : (p.books.takeOut e).view see = p.books.view see :=
    Books.view_note (hr e _ _) p.books
  refine p.takeBack_cases now e (motive := fun _ b => b.view see = p.books.view see)
    ?retired ?kept ?closed
  case retired => exact fun _ => ht
  case kept =>
    intro hv hk
    exact (Books.view_note (hs (e.successor p.nextEntry))
      ((p.books.takeOut e).retire e.id .superseded)).trans ht
  case closed => exact fun _ _ => ht

/-- What a stretch that takes these looks may cost. -/
structure Brief (r : Request) (looks : List Look) (outcome : Outcome) (p q : Pool σ) : Prop where
  strikes : r.strikes = 0
  trials_le : looks.countP Look.isTrial ≤ p.config.badLimit.toNat + 1
  length_le : looks.length ≤ p.config.badLimit.toNat + 1 + looks.countP Look.isDrop
  drops_le : looks.countP Look.isDrop ≤ 1
  leases_le : looks.countP Look.endsLease ≤ 1
  /-- The strikes are counted in a word. -/
  counted : looks.countP Look.isTrial < UInt64.size
  examined : q.examinations = (looks.filterMap Look.examination?).reverse ++ p.examinations
  asleep : ∀ r', outcome = .saturated r' → looks = [.standstill] ∧ q = p ∧ r' = r

theorem brief_of_loop {looks : List Look} {outcome : Outcome} (h : Loop now r p looks outcome q)
    (f : p.books.Fit none) (hs : r.strikes = 0) (hl : p.config.badLimit.toNat + 1 < UInt64.size) :
    Brief r looks outcome p q := by
  have hn := h.length_le (by rw [hs]; exact Nat.zero_le _)
  have ht := Look.trials_add_drops_le looks
  have hd := Look.endsLease_eq looks
  have he := (h.within f).1
  refine ⟨hs, by omega, by omega, by omega, he, by omega, ?_, fun r' ho => h.saturated f ho⟩
  rw [examinations_books, examinations_books]
  exact h.sums.examinations

end Pool

namespace Service

variable {σ : Type} {s s' : Service σ} {pending pending' : List Request}

def underWay (pending : List Request) (s : Service σ) : List Request :=
  pending ++ s.waiting.map Sleeper.request

/-- The acquisitions under way are different ones, and none has met or taken anything yet. -/
structure Rested (pending : List Request) (s : Service σ) : Prop where
  strikes : ∀ r ∈ s.underWay pending, r.strikes = 0
  distinct : ((s.underWay pending).map Request.caller).Nodup
  came : ∀ r ∈ s.underWay pending, r.caller < s.callers
  rested : ∀ r ∈ s.underWay pending, r.caller ∉ s.pool.books.view Event.busy?
  known : ∀ caller ∈ s.pool.books.view Event.busy?, caller < s.callers
  claimed_once : (s.pool.books.view Event.claimant?).Nodup

namespace Rested

theorem congr (k : Rested pending s) (hw : (s'.underWay pending').Perm (s.underWay pending))
    (hc : s'.callers = s.callers)
    (hb : s'.pool.books.view Event.busy? = s.pool.books.view Event.busy?)
    (hm : s'.pool.books.view Event.claimant? = s.pool.books.view Event.claimant?) :
    Rested pending' s' where
  strikes r hr := k.strikes r (hw.subset hr)
  distinct := (hw.map _).nodup_iff.mpr k.distinct
  came r hr := hc ▸ k.came r (hw.subset hr)
  rested r hr := hb ▸ k.rested r (hw.subset hr)
  known caller hm := hc ▸ k.known caller (hb ▸ hm)
  claimed_once := hm ▸ k.claimed_once

theorem drop {r : Request} (k : Rested (r :: pending) s) : Rested pending s where
  strikes x hx := k.strikes x (List.mem_cons_of_mem r hx)
  distinct := (List.nodup_cons.mp k.distinct).2
  came x hx := k.came x (List.mem_cons_of_mem r hx)
  rested x hx := k.rested x (List.mem_cons_of_mem r hx)
  known := k.known
  claimed_once := k.claimed_once

theorem renew {r r' : Request} (k : Rested (r :: pending) s) (hc : r'.caller = r.caller)
    (hs : r'.strikes = r.strikes) : Rested (r' :: pending) s where
  strikes x hx := by
    rcases List.mem_cons.mp hx with rfl | hx
    · exact hs.trans (k.strikes r List.mem_cons_self)
    · exact k.strikes x (List.mem_cons_of_mem r hx)
  distinct := by
    have hd := k.distinct
    change (r.caller :: (s.underWay pending).map Request.caller).Nodup at hd
    rw [← hc] at hd
    exact hd
  came x hx := by
    rcases List.mem_cons.mp hx with rfl | hx
    · exact hc ▸ k.came r List.mem_cons_self
    · exact k.came x (List.mem_cons_of_mem r hx)
  rested x hx := by
    rcases List.mem_cons.mp hx with rfl | hx
    · exact hc ▸ k.rested r List.mem_cons_self
    · exact k.rested x (List.mem_cons_of_mem r hx)
  known := k.known
  claimed_once := k.claimed_once

theorem spend {r : Request} {q : Pool σ} {n : Nat} (k : Rested (r :: pending) s)
    (hb : ∀ caller ∈ q.books.view Event.busy?,
      caller = r.caller ∨ caller ∈ s.pool.books.view Event.busy?)
    (hn : n ≤ 1) (hm : q.books.view Event.claimant? =
      List.replicate n r.caller ++ s.pool.books.view Event.claimant?) :
    Rested pending { s with pool := q } where
  strikes := k.drop.strikes
  distinct := k.drop.distinct
  came := k.drop.came
  rested x hx hq := by
    rcases hb _ hq with h | h
    · have hd := (List.nodup_cons.mp k.distinct).1
      exact hd (h ▸ List.mem_map_of_mem hx)
    · exact k.drop.rested x hx h
  known caller hq := by
    rcases hb caller hq with rfl | h
    · exact k.came r List.mem_cons_self
    · exact k.known caller h
  claimed_once := by
    show (q.books.view Event.claimant?).Nodup
    rw [hm]
    match n, hn with
    | 0, _ => exact k.claimed_once
    | 1, _ =>
      refine List.nodup_cons.mpr ⟨fun h => ?_, k.claimed_once⟩
      exact k.rested r List.mem_cons_self (Books.busy_of_mem_claimants h)

theorem settle {r : Request} (k : Rested pending s) (result : Except PoolError Entry) :
    Rested pending (s.settle r result) := by
  cases result <;> exact k.congr (List.Perm.refl _) rfl rfl rfl

theorem block {r : Request} (k : Rested (r :: pending) s) : Rested pending (s.block r) := by
  have kc : Rested (r :: pending) (s.countWait r) := by
    unfold countWait
    split
    · exact k
    · exact k.congr (List.Perm.refl _) rfl rfl rfl
  unfold Service.block
  dsimp only
  split
  · exact kc.drop.settle _
  · have kr : Rested ({ r with hasWaited := true } :: pending) (s.countWait r) := kc.renew rfl rfl
    refine kr.congr ?_ rfl rfl rfl
    show (pending ++ ((s.countWait r).waiting ++ [_]).map Sleeper.request).Perm
      ({ r with hasWaited := true } :: (pending ++ (s.countWait r).waiting.map Sleeper.request))
    rw [List.map_append, ← List.append_assoc]
    exact List.perm_append_singleton _ _

variable [Driver σ]

theorem pursue {r : Request} (ho : s.Steady) (k : Rested (r :: pending) s) :
    Rested pending (s.pursue r) := by
  have hb := fun caller => @Pool.busy_seek σ _ s.now r s.pool caller
  obtain ⟨looks, h⟩ := Pool.seek_loop s.now r s.pool ho.2
  have hn := (h.within ho.2).1
  have hm := h.sums.claimants
  unfold Service.pursue
  generalize s.pool.seek s.now r = found at hb h hm
  obtain ⟨outcome, q⟩ := found
  cases outcome with
  | granted entry | failed error => exact (k.spend hb hn hm).settle _
  | saturated r' =>
    obtain ⟨-, hq, rfl⟩ := h.saturated ho.2 rfl
    change q = s.pool at hq
    subst hq
    exact k.block

theorem kept (op : Op σ) (k : Rested [] s) : KeptThrough op s Rested where
  perm hp k := k.congr (hp.symm.append_right _) rfl rfl rfl
  rise {pending s x others} hw k := by
    refine k.congr ?_ rfl rfl rfl
    exact List.perm_middle.symm.trans ((hw.symm.map Sleeper.request).append_left pending)
  pass _ k := k.congr (List.Perm.refl _) rfl rfl rfl
  awake k := k.congr (List.Perm.refl _) rfl rfl rfl
  interrupt k := k.drop.settle _
  pursue _ ho k := k.pursue ho
  first := k
  come form _ _ := by
    have hn (x : Request) (hx : x ∈ s.underWay []) : x.caller ≠ s.callers :=
      Nat.ne_of_lt (k.came x hx)
    refine ⟨fun x hx => ?_, List.nodup_cons.mpr ⟨fun hm => ?_, k.distinct⟩, fun x hx => ?_,
      fun x hx => ?_, fun caller hc => Nat.lt_succ_of_lt (k.known caller hc), k.claimed_once⟩
    · rcases List.mem_cons.mp hx with rfl | hx
      · rfl
      · exact k.strikes x hx
    · obtain ⟨x, hx, he⟩ := List.mem_map.mp hm
      exact hn x hx he
    · rcases List.mem_cons.mp hx with rfl | hx
      · exact Nat.lt_succ_self _
      · exact Nat.lt_succ_of_lt (k.came x hx)
    · rcases List.mem_cons.mp hx with rfl | hx
      · exact fun hc => absurd (k.known _ hc) (Nat.lt_irrefl s.callers)
      · exact k.rested x hx
  takeBack hh hr :=
    k.congr (List.Perm.refl _) rfl (Pool.view_returned (fun _ _ _ => rfl) (fun _ => rfl) _ _ _)
      (Pool.view_returned (fun _ _ _ => rfl) (fun _ => rfl) _ _ _)
  mark _ := k.congr (List.Perm.refl _) rfl rfl rfl
  forward i c _ := by
    have hf := (forward_cases s i c).1
    refine k.congr ?_ (by rw [hf]) (view_forward s i c) (view_forward s i c)
    rw [underWay, (forward_frame s i c).1]
    exact List.Perm.refl _
  command s' h := by
    refine k.congr ?_ ?_ (view_command (fun _ _ => rfl) op s s' h)
      (view_command (fun _ _ => rfl) op s s' h)
    · cases h <;> exact List.Perm.refl _
    · cases h <;> rfl

end Rested

theorem rested_start (driver : σ) (config : Config) (pool : Pool σ)
    (h : Pool.create driver config = .ok pool) : Rested [] (start pool) := by
  rw [Pool.of_create driver config pool h]
  exact ⟨fun _ h => absurd h List.not_mem_nil, List.nodup_nil, fun _ h => absurd h List.not_mem_nil,
    fun _ h => absurd h List.not_mem_nil, fun _ h => absurd h List.not_mem_nil, List.nodup_nil⟩

variable [Driver σ]

theorem rested_run (ops : List (Op σ)) (ho : s.Steady) (k : Rested [] s) :
    Rested [] (run ops s) := by
  induction ops generalizing s with
  | nil => exact k
  | cons op rest ih => exact ih (steady_step op ho) ((k.kept op).step ho)

theorem steady_start (driver : σ) (config : Config) (pool : Pool σ)
    (h : Pool.create driver config = .ok pool) : (start pool).Steady :=
  fit_run driver config pool h []

theorem rested_begins {op : Op σ} {r : Request} {t : Service σ} (ho : s.Steady)
    (k : Rested [] s) (h : Begins r t op s) :
    t.Steady ∧ r.strikes = 0 ∧ r.caller ∉ t.pool.books.view Event.busy? := by
  obtain ⟨others, kt⟩ := (k.kept op).begins ho h
  exact ⟨steady_moves (begins_moves h) ho, kt.strikes r List.mem_cons_self,
    kt.rested r List.mem_cons_self⟩

/-- In every run of every pool each acquisition takes one lease at most, and each of its stretches
is brief. -/
theorem brevity_run (driver : σ) (config : Config) (pool : Pool σ)
    (h : Pool.create driver config = .ok pool) (ops : List (Op σ)) :
    ((run ops (start pool)).seen Event.claimant?).Nodup ∧
      ∀ op r t, Begins r t op (run ops (start pool)) →
        t.pool.config.badLimit.toNat + 1 < UInt64.size →
          ∃ looks, t.pool.Loop t.now r looks (t.pool.seek t.now r).1 (t.pool.seek t.now r).2 ∧
            Pool.Brief r looks (t.pool.seek t.now r).1 t.pool (t.pool.seek t.now r).2 := by
  have ho := fit_run driver config pool h ops
  have k := rested_run ops (steady_start driver config pool h) (rested_start driver config pool h)
  refine ⟨?_, fun op r t hb hl => ?_⟩
  · rw [seen_books Event.claimant_of_traffic]
    exact k.claimed_once
  · obtain ⟨hot, hs, -⟩ := rested_begins ho k hb
    obtain ⟨looks, hloop⟩ := Pool.seek_loop t.now r t.pool hot.2
    exact ⟨looks, hloop, Pool.brief_of_loop hloop hot.2 hs hl⟩

/-- A lease is spoilt and kept too long, and the driver opens only broken connections by now. -/
def spoiltLeaseKept : List (Op Scripted) :=
  [.acquire .plain, .meddle (Scripted.act (.sever 0)), .call 0 (.execute "SELECT 1"),
    .meddle fun s => { s with openingBroken := true }, .advance (Nanos.ofSeconds 21)]

theorem run_spoiltLeaseKept :
    run spoiltLeaseKept (start (Pool.unused ({} : Scripted) Config.single)) =
      { run (spoiltLeaseKept.take 4) (start (Pool.unused ({} : Scripted) Config.single)) with
        now := Nanos.ofSeconds 21 } :=
  run_advance_undue (spoiltLeaseKept.take 4) [] _ (Nanos.ofSeconds 21) (Nanos.ofSeconds 21)
    (by decide +kernel) (by decide +kernel)

/-- The next caller drops that lease and then meets one bad connection more than the limit of eight:
no stretch can be longer. -/
theorem brevity_spoiltLeaseKept :
    let s := run spoiltLeaseKept (start (Pool.unused ({} : Scripted) Config.single))
    let t := { s with callers := s.callers + 1 }
    let u := t.pool.seek t.now (s.newcomer .plain)
    Pool.create ({} : Scripted) Config.single = .ok (Pool.unused {} Config.single) ∧
      (s.seen Event.claimant?).Nodup ∧
      ∃ looks, t.pool.Loop t.now (s.newcomer .plain) looks u.1 u.2 ∧
        Pool.Brief (s.newcomer .plain) looks u.1 t.pool u.2 ∧
        looks.countP Look.isBad = 9 ∧ looks.countP Look.isDrop = 1 ∧ looks.length = 10 := by
  intro s t u
  obtain ⟨hc, hb⟩ := brevity_run ({} : Scripted) Config.single (Pool.unused {} Config.single) rfl
    spoiltLeaseKept
  have hshown : s.isLive = true ∧ t.pool.config = Config.single ∧
      (t.pool.books.view Event.claimant?).length = 0 ∧
      (u.2.books.view Event.claimant?).length = 1 ∧ u.2.tally.bad = t.pool.tally.bad + 9 ∧
      u.2.backend.opened = t.pool.backend.opened + 9 := by
    unfold u t s
    rw [run_spoiltLeaseKept]
    decide +kernel
  obtain ⟨hlive, hconfig, hnone, hone, hbad, hopened⟩ := hshown
  have hlimit : t.pool.config.badLimit.toNat = 8 := by
    rw [hconfig]
    decide
  obtain ⟨looks, hloop, k⟩ := hb (.acquire .plain) (s.newcomer .plain) t
    (.come s .plain hlive rfl rfl) (by rw [hlimit]; decide)
  have hcountBad := hloop.sums.bad
  have hcountOpened := hloop.sums.opened
  have hcountLeases := congrArg List.length hloop.sums.claimants
  rw [List.length_append, List.length_replicate, hnone, hone] at hcountLeases
  change u.2.tally.bad = t.pool.tally.bad + _ at hcountBad
  change u.2.backend.opened = t.pool.backend.opened + _ at hcountOpened
  have htrials := k.trials_le
  have hlength := k.length_le
  have hsources := Look.trials_eq_sources looks
  have hverdicts := Look.trials_eq looks
  have hleases := Look.endsLease_eq looks
  have hleast := Look.trials_add_drops_le looks
  exact ⟨rfl, hc, looks, hloop, k, by omega, by omega, by omega⟩

end Service

end ConnectionPool
