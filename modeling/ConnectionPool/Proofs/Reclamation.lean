import ConnectionPool.Proofs.Brevity
import ConnectionPool.Proofs.Episodes
import ConnectionPool.Proofs.Leases
import ConnectionPool.Proofs.Resets

/-!
# Reclamation

A search looks at the first lease only, and takes it away if it is overdue. That lease has lasted
longest, because at every moment the leases stand in the order in which they began: a new one joins
at the end with the present instant, whatever its entry has been through, and any of them may leave.
So a caller that finds the first lease in time, and goes to sleep, leaves none that is overdue.
-/

set_option autoImplicit false

namespace ConnectionPool

structure BySeniority (now : Nat) (active : List Entry) : Prop where
  sorted : active.Pairwise fun a b => a.checkoutAt ≤ b.checkoutAt
  begun : ∀ e ∈ active, e.checkoutAt ≤ now

namespace BySeniority

variable {now : Nat} {active rest : List Entry} {e : Entry}

theorem nil (now : Nat) : BySeniority now [] :=
  ⟨List.Pairwise.nil, fun _ h => absurd h List.not_mem_nil⟩

theorem sublist (k : BySeniority now active) (h : rest.Sublist active) : BySeniority now rest where
  sorted := k.sorted.sublist h
  begun a ha := k.begun a (h.subset ha)

theorem pass {later : Nat} (k : BySeniority now active) (h : now ≤ later) :
    BySeniority later active where
  sorted := k.sorted
  begun a ha := Nat.le_trans (k.begun a ha) h

theorem concat (k : BySeniority now active) (he : e.checkoutAt = now) :
    BySeniority now (active ++ [e]) where
  sorted := by
    refine List.pairwise_append.mpr ⟨k.sorted, List.pairwise_singleton _ _, fun a ha b hb => ?_⟩
    rw [List.mem_singleton.mp hb, he]
    exact k.begun a ha
  begun a ha := by
    rcases List.mem_append.mp ha with ha | ha
    · exact k.begun a ha
    · exact Nat.le_of_eq (List.mem_singleton.mp ha ▸ he)

theorem heldFor_le (k : BySeniority now (e :: rest)) :
    ∀ a ∈ e :: rest, a.heldFor now ≤ e.heldFor now := by
  intro a ha
  rcases List.mem_cons.mp ha with rfl | ha
  · exact Nat.le_refl _
  · exact Nat.sub_le_sub_left ((List.pairwise_cons.mp k.sorted).1 a ha) now

theorem inTime {span : Nat} (k : BySeniority now active)
    (h : ∀ oldest ∈ active.head?, oldest.heldFor now ≤ span) :
    ∀ a ∈ active, a.heldFor now ≤ span := by
  cases active with
  | nil => exact fun a ha => absurd ha List.not_mem_nil
  | cons oldest rest => exact fun a ha => Nat.le_trans (k.heldFor_le a ha) (h oldest rfl)

end BySeniority

def Outcome.lent? : Outcome → Option Entry
  | granted e => some e
  | failed _ | saturated _ => none

namespace Pool

variable {σ : Type} [Driver σ] {now caller : Nat} {r : Request} {p p₁ p₂ q : Pool σ}
  {source : Source} {e : Entry} {lent : List Entry} {looks : List Look} {outcome : Outcome}

structure Overrun (now : Nat) (oldest : Entry) (rest : List Entry) (p : Pool σ) : Prop where
  idle : p.idle = []
  full : p.hasRoom = false
  active : p.active = oldest :: rest
  overdue : p.config.maxCheckout < oldest.heldFor now

/-- What a search does to the leases: it may take the oldest one away, and it adds what it lends. -/
inductive Relieves (now : Nat) (lent : List Entry) (p q : Pool σ) : Prop
  | spared (ha : q.active = p.active ++ lent)
      (hv : q.books.view Event.claim? = p.books.view Event.claim?)
  | taken (oldest : Entry) (rest : List Entry) (ho : p.Overrun now oldest rest)
      (ha : q.active = rest ++ lent)
      (hv : q.books.view Event.claim? =
        ⟨oldest, oldest.heldFor now⟩ :: p.books.view Event.claim?)

omit [Driver σ] in
theorem Relieves.add (h : Relieves now [] p p₁) (ha : q.active = p₁.active ++ lent)
    (hv : q.books.view Event.claim? = p₁.books.view Event.claim?) : Relieves now lent p q := by
  cases h with
  | spared ha₁ hv₁ => exact .spared (by rw [ha, ha₁, List.append_nil]) (hv.trans hv₁)
  | taken oldest rest ho ha₁ hv₁ =>
    exact .taken oldest rest ho (by rw [ha, ha₁, List.append_nil]) (hv.trans hv₁)

theorem leases_grant (hx : p.examine now r.caller e = (true, q)) :
    (q.grant now r e).2.active = p.active ++ [(q.grant now r e).1] ∧
      (q.grant now r e).2.books.view Event.claim? = p.books.view Event.claim? := by
  refine ⟨(grant_frame hx).2.2.2, ?_⟩
  rw [books_grant, examine_books now r.caller e true p q hx]
  rfl

theorem leases_reject (hx : p.examine now caller e = (false, q)) :
    (q.reject e).active = p.active ∧
      (q.reject e).books.view Event.claim? = p.books.view Event.claim? := by
  have hq := books_reject e q
  rw [examine_books now caller e false p q hx] at hq
  refine ⟨congrArg Books.active hq, ?_⟩
  rw [hq]
  rfl

theorem Takes.relieves (h : p.Takes now caller source e q) :
    Relieves now [] p q ∧ (source ≠ .claimed → q.active = p.active ∧
      q.books.view Event.claim? = p.books.view Event.claim?) := by
  have hspared (ha : q.active = p.active)
      (hv : q.books.view Event.claim? = p.books.view Event.claim?) : Relieves now [] p q :=
    .spared (by rw [ha, List.append_nil]) hv
  cases h with
  | idle e rest hi => exact ⟨hspared rfl rfl, fun _ => ⟨rfl, rfl⟩⟩
  | opened e q hi hr h =>
    have hb := (openLink_found now p q e h).2
    have ha : q.active = p.active := congrArg Books.active hb
    have hv : q.books.view Event.claim? = p.books.view Event.claim? := by
      rw [hb]
      rfl
    exact ⟨hspared ha hv, fun _ => ⟨ha, hv⟩⟩
  | claimed oldest rest hi hr ha ho hv =>
    have hb := books_takeOver now caller oldest rest p
    refine ⟨.taken oldest rest ⟨hi, hr, ha, ho⟩ ?_ ?_, fun hn => absurd rfl hn⟩
    · rw [List.append_nil]
      exact congrArg Books.active hb
    · rw [hb]
      rfl

theorem Drops.relieves {oldest : Entry} (h : p.Drops now caller oldest q) :
    Relieves now [] p q := by
  cases h with
  | drop rest hi hr ha ho hv =>
    have hb : ((p.unlend now caller oldest rest).close oldest).books = _ :=
      (books_close oldest _).trans (books_unlend now caller oldest rest p)
    refine .taken oldest rest ⟨hi, hr, ha, ho⟩ ?_ ?_
    · rw [List.append_nil]
      exact congrArg Books.active hb
    · rw [hb]
      rfl

theorem Loop.spares (h : Loop now r p looks outcome q) (hr : p.Roomy) :
    q.active = p.active ++ outcome.lent?.toList ∧
      q.books.view Event.claim? = p.books.view Event.claim? := by
  induction h with
  | granted r p p₁ p₂ source e ht hx =>
    obtain ⟨ha, hv⟩ := ht.relieves.2 (ht.of_roomy hr hx).1
    obtain ⟨hga, hgv⟩ := leases_grant hx
    exact ⟨by rw [hga, ha]; rfl, hgv.trans hv⟩
  | exhausted r p p₁ p₂ source e ht hx hl =>
    obtain ⟨ha, hv⟩ := ht.relieves.2 (ht.of_roomy hr hx).1
    obtain ⟨hra, hrv⟩ := leases_reject hx
    exact ⟨by rw [hra, ha]; exact (List.append_nil _).symm, hrv.trans hv⟩
  | again r p p₁ p₂ q source e looks outcome ht hx hl h ih =>
    obtain ⟨hs, hr₂⟩ := ht.of_roomy hr hx
    obtain ⟨ha, hv⟩ := ht.relieves.2 hs
    obtain ⟨hra, hrv⟩ := leases_reject hx
    obtain ⟨hia, hiv⟩ := ih hr₂
    exact ⟨by rw [hia, hra, ha], hiv.trans (hrv.trans hv)⟩
  | dropped r p p' q oldest looks outcome hd hr' h ih =>
    cases hd with
    | drop rest hi hf ha ho hv =>
      rw [hr.hasRoom] at hf
      exact Bool.noConfusion hf
  | refused r p q error hi hr' h =>
    have hb := openLink_refused now p q error h
    refine ⟨?_, by rw [hb]⟩
    exact (congrArg Books.active hb).trans (List.append_nil _).symm
  | standstill r p hi hf ho =>
    rw [hr.hasRoom] at hf
    exact Bool.noConfusion hf

theorem Loop.relieves (h : Loop now r p looks outcome q) (f : p.books.Fit none) :
    Relieves now outcome.lent?.toList p q := by
  cases h with
  | granted r p p₁ p₂ source e ht hx =>
    obtain ⟨ha, hv⟩ := leases_grant hx
    exact ht.relieves.1.add ha hv
  | exhausted r p p₁ p₂ source e ht hx hl =>
    obtain ⟨ha, hv⟩ := leases_reject hx
    exact ht.relieves.1.add (by rw [ha]; exact (List.append_nil _).symm) hv
  | again r p p₁ p₂ q source e looks outcome ht hx hl h =>
    obtain ⟨ha, hv⟩ := h.spares (fit_reject hx (ht.fit f)).2
    obtain ⟨hra, hrv⟩ := leases_reject hx
    exact ht.relieves.1.add (by rw [ha, hra]) (hv.trans hrv)
  | dropped r p p' q oldest looks outcome hd hr h =>
    obtain ⟨ha, hv⟩ := h.spares (hd.fit f).2
    exact hd.relieves.add ha hv
  | refused r p q error hi hr h =>
    have hb := openLink_refused now p q error h
    refine .spared ?_ (by rw [hb])
    exact (congrArg Books.active hb).trans (List.append_nil _).symm
  | standstill r p hi hr ho =>
    refine .spared ?_ rfl
    split <;> exact (List.append_nil _).symm

end Pool

namespace Service

variable {σ : Type} {s v u : Service σ} {e : Entry}

/-- The lease may be taken away: nothing is idle, the pool is full, the lease is overdue, and none
has lasted longer. -/
structure Reclaimable (e : Entry) (s : Service σ) : Prop where
  lent : e ∈ s.pool.active
  noneIdle : s.pool.idle = []
  full : s.pool.active.length = s.pool.config.maxActive.toNat
  overdue : s.pool.config.maxCheckout < e.heldFor s.now
  longest : ∀ a ∈ s.pool.active, a.heldFor s.now ≤ e.heldFor s.now

theorem Reclaimable.of_awake {x : Sleeper} (k : Reclaimable e (s.awake x)) : Reclaimable e s :=
  ⟨k.lent, k.noneIdle, k.full, k.overdue, k.longest⟩

structure Reclaims (v u : Service σ) : Prop where
  claimed : ∀ c ∈ u.claims, c ∈ v.claims ∨ Reclaimable c.entry v ∧ c.held = c.entry.heldFor v.now
  ended : ∀ e ∈ v.pool.active, e ∉ u.pool.active →
    Reclaimable e v ∧ ⟨e, e.heldFor v.now⟩ ∈ u.claims
  asleep : ∀ x, u.waiting = v.waiting ++ [x] →
    ∀ e ∈ u.pool.active, e.heldFor u.now ≤ u.pool.config.maxCheckout

theorem claims_settle (r : Request) (result : Except PoolError Entry) (s : Service σ) :
    (s.settle r result).claims = s.claims ∧ (s.settle r result).pool.active = s.pool.active := by
  cases result <;> exact ⟨rfl, rfl⟩

theorem claims_block (r : Request) (s : Service σ) : (s.block r).claims = s.claims := by
  unfold block countWait
  dsimp only
  split <;> split <;> rfl

theorem Reclaims.of_still {r : Request} {result : Except PoolError Entry}
    (hc : u.claims = v.claims) (ha : u.pool.active = v.pool.active) (h : Settles r result v u) :
    Reclaims v u where
  claimed _ h := Or.inl (hc ▸ h)
  ended _ he hn := absurd (ha ▸ he) hn
  asleep x hx := absurd hx (h.not_asleep x)

variable [Driver σ]

theorem seniority_move (m m' : Option Entry × Service σ) (h : Move m m')
    (k : BySeniority m.2.now m.2.pool.active) : BySeniority m'.2.now m'.2.pool.active := by
  cases h with
  | mark s | come s | leave s | awake s x | sleep s r hs hc | fail s r error => exact k
  | pass s now hn => exact k.pass hn
  | countWait s r =>
    unfold countWait
    split <;> exact k
  | turn s caller hand hand' q h =>
    obtain ⟨-, ⟨ha, -⟩ | ⟨oldest, ha, -, -⟩⟩ := h.claims
    · exact ha ▸ k
    · refine k.sublist ?_
      rw [show s.pool.active = oldest :: q.active from ha]
      exact List.sublist_cons_self _ _
  | grant s r e q h =>
    have ha : (q.grant s.now r e).2.active = s.pool.active ++ [(q.grant s.now r e).1] :=
      (Pool.grant_frame h).2.2.2
    show BySeniority s.now (q.grant s.now r e).2.active
    rw [ha]
    exact k.concat rfl
  | takeBack s i handle hh hr =>
    refine k.sublist ?_
    show (s.pool.takeBack s.now handle.entry).2.active.Sublist s.pool.active
    rw [(Pool.takeBack_frame s.now handle.entry s.pool).2]
    exact List.eraseP_sublist

theorem seniority_command (op : Op σ) (s s' : Service σ) (h : Command op s s')
    (k : BySeniority s.now s.pool.active) : BySeniority s'.now s'.pool.active := by
  have hn : s'.now = s.now := by cases h <;> rfl
  rw [hn]
  obtain ⟨-, -, hb | ⟨config, -, hp⟩⟩ := command_cases op s s' h
  · rw [show s'.pool.active = s.pool.active from congrArg Books.active hb]
    exact k
  · rw [hp, (Pool.reset_frame { s.pool with config }).2.2.1]
    exact .nil s.now

theorem seniority_run (ops : List (Op σ)) (s : Service σ) (k : BySeniority s.now s.pool.active) :
    BySeniority (run ops s).now (run ops s).pool.active := by
  refine run_keeps (fun _ t => BySeniority t.now t.pool.active) seniority_move ?_ ops
    (fun op _ => seniority_command op) s k
  intro t i c _ k
  rw [(forward_frame t i c).2.2.1, (forward_cases t i c).1]
  exact k

omit [Driver σ] in
theorem seniority_start (driver : σ) (config : Config) (pool : Pool σ)
    (h : Pool.create driver config = .ok pool) :
    BySeniority (start pool).now (start pool).pool.active := by
  rw [Pool.of_create driver config pool h]
  exact .nil 0

omit [Driver σ] in
theorem reclaimable_of_overrun {oldest : Entry} {rest : List Entry}
    (k : BySeniority s.now s.pool.active) (f : s.pool.books.Fit none)
    (h : s.pool.Overrun s.now oldest rest) : Reclaimable oldest s where
  lent := by
    rw [h.active]
    exact List.mem_cons_self
  noneIdle := h.idle
  full := Nat.le_antisymm (Pool.withinLimits_of_fit _ f).active_le
    (Pool.full_of_not_hasRoom s.pool h.full)
  overdue := h.overdue
  longest := by
    have ha := h.active
    rw [ha] at k ⊢
    exact k.heldFor_le

theorem reclaims_pursuit {r : Request} (h : Pursuit r s u) (hs : s.Steady)
    (k : BySeniority s.now s.pool.active) : Reclaims s u := by
  cases h with
  | settled looks outcome result q hs' h hr =>
    obtain ⟨hc, ha⟩ := claims_settle r result { s with pool := q }
    have hv : ({ s with pool := q } : Service σ).claims = q.books.view Event.claim? :=
      claims_books _
    refine ⟨fun c hm => ?_, fun e he hn => ?_,
      fun x hx => absurd hx ((settles_seek r result hs').not_asleep x)⟩
    · rw [hc, hv] at hm
      rw [claims_books]
      cases h.relieves hs.2 with
      | spared ha' hv' => exact Or.inl (hv' ▸ hm)
      | taken oldest rest ho ha' hv' =>
        rw [hv'] at hm
        rcases List.mem_cons.mp hm with rfl | hm
        · exact Or.inr ⟨reclaimable_of_overrun k hs.2 ho, rfl⟩
        · exact Or.inl hm
    · rw [ha] at hn
      rw [hc, hv]
      cases h.relieves hs.2 with
      | spared ha' hv' =>
        refine absurd ?_ hn
        rw [show ({ s with pool := q } : Service σ).pool.active = _ from ha']
        exact List.mem_append_left _ he
      | taken oldest rest ho ha' hv' =>
        rw [ho.active] at he
        rcases List.mem_cons.mp he with rfl | he
        · exact ⟨reclaimable_of_overrun k hs.2 ho, hv' ▸ List.mem_cons_self⟩
        · refine absurd ?_ hn
          rw [show ({ s with pool := q } : Service σ).pool.active = _ from ha']
          exact List.mem_append_left _ he
  | blocked h =>
    obtain ⟨ha, hc⟩ := limits_block r s
    refine ⟨fun c hm => Or.inl (claims_block r s ▸ hm), fun e he hn => absurd (ha ▸ he) hn,
      fun x _ e he => ?_⟩
    rw [ha] at he
    rw [hc, now_block]
    exact k.inTime h.inTime e he

theorem Episode.reclaims {op : Op σ} {r : Request} (h : Episode op s r v u) (hs : s.Steady)
    (k : BySeniority s.now s.pool.active) : Reclaims v u := by
  have kv : BySeniority v.now v.pool.active :=
    moves_keep (fun _ t => BySeniority t.now t.pool.active) seniority_move _ _ h.moves.1 k
  have hv := h.steady hs
  cases h.course with
  | came _ hb => exact reclaims_pursuit (pursuit_pursue r hv.2) hv kv
  | woke x _ hr hb =>
    -- to wake changes neither the leases nor the claims
    have ha := steady_moves (.single (.awake v x)) hv
    have hx := reclaims_pursuit (pursuit_pursue r ha.2) ha kv
    exact ⟨fun c hm => (hx.claimed c hm).imp_right fun h => ⟨h.1.of_awake, h.2⟩,
      fun e he hn => ⟨(hx.ended e he hn).1.of_awake, (hx.ended e he hn).2⟩, hx.asleep⟩
  | gaveUp x _ hr hc =>
    have hend := gaveUp_ends r x v
    rw [takeFirst_rest] at hend ⊢
    exact .of_still rfl rfl hend

/-- In the operation an acquisition took this lease away, and at the beginning of its episode it
could be taken. -/
def Reclaimed (op : Op σ) (s : Service σ) (c : Claim) : Prop :=
  ∃ r v u, Episode op s r v u ∧ Reclaimable c.entry v ∧ c.held = c.entry.heldFor v.now

theorem claims_takeBack (i : Nat) (handle : Handle) (s : Service σ) :
    (s.takeBack i handle).claims = s.claims := by
  rw [claims_books, claims_books]
  exact Pool.view_returned (fun _ _ _ => rfl) (fun _ => rfl) s.now handle.entry s.pool

theorem claims_forward (i : Nat) (c : Call) (s : Service σ) :
    (s.forward i c).2.claims = s.claims := by
  rw [claims_books, claims_books]
  exact view_forward s i c

theorem claims_command {op : Op σ} (h : Command op s u) : u.claims = s.claims := by
  rw [claims_books, claims_books]
  exact view_command (fun _ _ => rfl) op s u h

theorem reclaimed_step (op : Op σ) (hs : s.Steady) (k : BySeniority s.now s.pool.active) {c : Claim}
    (hc : c ∈ (step op s).claims) : c ∈ s.claims ∨ Reclaimed op s c := by
  have hkept : KeptByEpisodes op s fun u => ∀ c ∈ u.claims, c ∈ s.claims ∨ Reclaimed op s c := by
    refine ⟨fun c hc => Or.inl hc, fun u u' hp _ hu c hc => ?_, fun {r v u} he hv c hc => ?_,
      fun _ _ c hc => Or.inl (claims_takeBack _ _ s ▸ hc),
      fun i c _ d hd => Or.inl (claims_forward i c s ▸ hd),
      fun s' h c hc => Or.inl (claims_command h ▸ hc)⟩
    · rw [claims_books, hp, ← claims_books] at hc
      exact hu c hc
    · rcases (he.reclaims hs k).claimed c hc with hc | ⟨hr, hh⟩
      · exact hv c hc
      · exact Or.inr ⟨r, v, u, he, hr, hh⟩
  exact hkept.step c hc

theorem reclaimed_run (ops : List (Op σ)) (hs : s.Steady) (k : BySeniority s.now s.pool.active)
    {c : Claim} (hc : c ∈ (run ops s).claims) :
    c ∈ s.claims ∨ ∃ before op after, ops = before ++ op :: after ∧
      Reclaimed op (run before s) c := by
  induction ops generalizing s with
  | nil => exact Or.inl hc
  | cons op rest ih =>
    rcases ih (steady_step op hs) (seniority_run [op] s k) hc with
      hc | ⟨before, op', after, rfl, hr⟩
    · refine (reclaimed_step op hs k hc).imp_right fun hr => ?_
      exact ⟨[], op, rest, rfl, hr⟩
    · exact Or.inr ⟨op :: before, op', after, rfl, hr⟩

/-- In every run of every pool the leases stand in the order in which they began, at every moment of
the next operation too. Whatever lease an acquisition took away was overdue and the longest of all,
in a full pool with nothing idle, and no episode of an acquisition ends a lease in any other way;
and whenever one ends asleep, no lease is overdue. -/
theorem reclamation_run (driver : σ) (config : Config) (pool : Pool σ)
    (h : Pool.create driver config = .ok pool) (ops : List (Op σ)) :
    (∀ m, Moves (none, run ops (start pool)) m →
        m.2.pool.active.Pairwise fun a b => a.checkoutAt ≤ b.checkoutAt) ∧
      (∀ c ∈ (run ops (start pool)).claims, ∃ before op after, ops = before ++ op :: after ∧
        Reclaimed op (run before (start pool)) c) ∧
      ∀ op r v u, Episode op (run ops (start pool)) r v u →
        (∀ e ∈ v.pool.active, e ∉ u.pool.active →
          Reclaimable e v ∧ ⟨e, e.heldFor v.now⟩ ∈ u.claims) ∧
        ∀ x, u.waiting = v.waiting ++ [x] →
          ∀ e ∈ u.pool.active, e.heldFor u.now ≤ u.pool.config.maxCheckout := by
  have hs : (start pool).Steady := fit_run driver config pool h []
  have k := seniority_start driver config pool h
  have kr := seniority_run ops _ k
  refine ⟨fun m hm => ?_, fun c hc => ?_, fun op r v u he => ?_⟩
  · exact (moves_keep (fun _ t => BySeniority t.now t.pool.active) seniority_move _ m hm kr).sorted
  · refine (reclaimed_run ops hs k hc).resolve_left fun hn => ?_
    rw [Pool.of_create driver config pool h] at hn
    exact absurd hn List.not_mem_nil
  · have hv := he.reclaims (fit_run driver config pool h ops) kr
    exact ⟨hv.ended, hv.asleep⟩

theorem reclamation_overdueTakeover :
    Pool.create ({} : Scripted) Config.single = .ok (Pool.unused {} Config.single) ∧
      ∃ c ∈ (run overdueTakeover (start (Pool.unused ({} : Scripted) Config.single))).claims,
        c.held = Nanos.ofSeconds 21 ∧ ∃ before op after, overdueTakeover = before ++ op :: after ∧
          Reclaimed op (run before (start (Pool.unused ({} : Scripted) Config.single))) c := by
  obtain ⟨-, hc, -⟩ :=
    reclamation_run ({} : Scripted) Config.single (Pool.unused {} Config.single) rfl overdueTakeover
  have hm : ((run overdueTakeover (start (Pool.unused ({} : Scripted) Config.single))).claims.any
      fun c => c.held == Nanos.ofSeconds 21) = true := by
    rw [run_overdueTakeover]
    decide +kernel
  obtain ⟨c, hm, hheld⟩ := List.any_eq_true.mp hm
  exact ⟨rfl, c, hm, by simpa using hheld, hc c hm⟩

end Service

end ConnectionPool
