import ConnectionPool.Proofs.Counts
import ConnectionPool.Proofs.Resets
import Mathlib.Algebra.GroupWithZero.Nat

/-!
# Lease time

How long a connection was lent is added to the tally when the lease ends, by a return or by a claim,
and at no other time. What was added and what still runs grow together only with the clock, for each
lease by the time that passes. There are never more leases than connections may be active, so the
sum is at most that many times the age of the pool. A claim adds the whole of an overdue lease,
which is more than the longest time that a lease may last.
-/

set_option autoImplicit false

namespace ConnectionPool

/-- The longest time that can be told in a 64-bit word of whole seconds and a fraction. -/
def Nanos.longest : Nat := ofSeconds UInt64.size - 1

def heldTime (now : Nat) (leases : List Entry) : Nat := (leases.map (Entry.heldFor now)).sum

section HeldTime

variable {leases other : List Entry} {now later : Nat}

theorem heldTime_cons (e : Entry) :
    heldTime now (e :: leases) = e.heldFor now + heldTime now leases := by
  simp [heldTime]

theorem heldTime_append : heldTime now (leases ++ other) =
    heldTime now leases + heldTime now other := by
  simp [heldTime]

theorem heldTime_perm (h : leases.Perm other) : heldTime now leases = heldTime now other :=
  (h.map (Entry.heldFor now)).sum_nat

theorem heldTime_erase {e : Entry} (he : e ∈ leases) :
    e.heldFor now + heldTime now (leases.erase e) = heldTime now leases := by
  rw [heldTime_perm (List.perm_cons_erase he), heldTime_cons]

theorem heldTime_eraseP_le (p : Entry → Bool) :
    heldTime now (leases.eraseP p) ≤ heldTime now leases := by
  induction leases with
  | nil => exact Nat.le_refl _
  | cons e rest ih =>
    by_cases hp : p e = true
    · rw [List.eraseP_cons_of_pos hp, heldTime_cons]
      omega
    · rw [List.eraseP_cons_of_neg hp, heldTime_cons, heldTime_cons]
      omega

theorem heldTime_pass (h : now ≤ later) :
    heldTime later leases ≤ heldTime now leases + leases.length * (later - now) := by
  induction leases with
  | nil => simp [heldTime]
  | cons e rest ih =>
    have he : e.heldFor later ≤ e.heldFor now + (later - now) := by
      simp only [Entry.heldFor]
      omega
    rw [heldTime_cons, heldTime_cons, List.length_cons, Nat.succ_mul]
    omega

end HeldTime

/-- What was added and what runs is at most the time that so many places offer, and no time of a
claimed lease was added to one sum only. -/
structure Books.Metered (places now : Nat) (b : Books) : Prop where
  total : b.tally.checkoutTime + heldTime now b.active ≤ places * now
  claimed : b.tally.claimedTime ≤ b.tally.checkoutTime

def Tally.Tolled (span : Nat) (t : Tally) : Prop := t.claimed * (span + 1) ≤ t.claimedTime

namespace Books.Metered

variable {places now later : Nat} {b b' : Books}

theorem pass (k : b.Metered places now) (hl : b.active.length ≤ places) (h : now ≤ later) :
    b.Metered places later where
  claimed := k.claimed
  total := by
    have ht := k.total
    have hgrow : heldTime later b.active ≤
        heldTime now b.active + b.active.length * (later - now) := heldTime_pass h
    calc b.tally.checkoutTime + heldTime later b.active
        ≤ places * now + b.active.length * (later - now) := by omega
      _ ≤ places * now + places * (later - now) :=
        Nat.add_le_add_left (Nat.mul_le_mul_right _ hl) _
      _ = places * later := by rw [← Nat.mul_add, Nat.add_sub_cancel' h]

theorem congr (k : b.Metered places now) (hc : b'.tally.checkoutTime = b.tally.checkoutTime)
    (ht : b'.tally.claimedTime = b.tally.claimedTime) (ha : b'.active = b.active) :
    b'.Metered places now := by
  constructor
  · rw [hc, ha]
    exact k.total
  · rw [hc, ht]
    exact k.claimed

theorem empty (k : b.Metered places now) (ht : b'.tally = b.tally) (ha : b'.active = []) :
    b'.Metered places now := by
  have h := k.total
  constructor
  · rw [ht, ha]
    simp only [heldTime, List.map_nil, List.sum_nil]
    omega
  · rw [ht]
    exact k.claimed

end Books.Metered

theorem Books.Turn.metered {now caller places : Nat} {m m' : Option Entry × Books}
    (h : Turn now caller m m') (k : m.2.Metered places now) : m'.2.Metered places now := by
  cases h with
  | pick b e rest hi | connect b hi hr | refuse b | reject b e => exact k.congr rfl rfl rfl
  | claim b oldest rest hi hf ha hv | drop b oldest rest hi hf ha hv =>
    -- what the oldest lease lasted goes from the leases that run to the tally
    have ht : b.tally.checkoutTime + heldTime now b.active ≤ places * now := k.total
    have hc : b.tally.claimedTime ≤ b.tally.checkoutTime := k.claimed
    rw [ha, heldTime_cons] at ht
    constructor <;> simp only [Tally.addClaim] <;> omega

theorem Pool.Turn.tolled {σ : Type} [Driver σ] {now caller : Nat} {m m' : Option Entry × Pool σ}
    (h : Turn now caller m m') (k : m.2.tally.Tolled m.2.config.maxCheckout) :
    m'.2.tally.Tolled m.2.config.maxCheckout := by
  have hadd (t : Tally) (span held : Nat) (hs : span < held) (ht : t.Tolled span) :
      (t.addClaim held).Tolled span := by
    simp only [Tally.Tolled, Tally.addClaim, Nat.succ_mul] at ht ⊢
    omega
  cases h with
  | pick p e rest hi => exact k
  | connect p q e hi hr h =>
    have ht : q.tally = p.tally := congrArg Books.tally (openLink_found now p q e h).2
    rwa [ht]
  | refuse p q error hi hr h =>
    have ht : q.tally = p.tally := congrArg Books.tally (openLink_refused now p q error h)
    rwa [ht]
  | claim p oldest rest hi hr ha ho hv =>
    have ht : (p.takeOver now caller oldest rest).tally = p.tally.addClaim (oldest.heldFor now) :=
      congrArg Books.tally (books_takeOver now caller oldest rest p)
    rw [ht]
    exact hadd _ _ _ ho k
  | drop p oldest rest hi hr ha ho hv =>
    have ht : ((p.unlend now caller oldest rest).close oldest).tally =
        p.tally.addClaim (oldest.heldFor now) := rfl
    rw [ht]
    exact hadd _ _ _ ho k
  | reject p q e h =>
    have hq : q.tally = p.tally := congrArg Books.tally (examine_books now caller e false p q h)
    have ht : (q.reject e).tally = q.tally.addBad := congrArg Books.tally (books_reject e q)
    rw [ht, hq]
    exact k

namespace Pool

variable {σ : Type} [Driver σ] {p : Pool σ} {handles : List Handle}

theorem metered_grant {now places : Nat} {r : Request} {e : Entry} {q : Pool σ}
    (h : p.examine now r.caller e = (true, q)) (k : p.books.Metered places now) :
    (q.grant now r e).2.books.Metered places now := by
  have hx := examine_books now r.caller e true p q h
  have ht : q.tally = p.tally := congrArg Books.tally hx
  have ha : q.active = p.active := congrArg Books.active hx
  have hzero : (q.grant now r e).1.heldFor now = 0 := Nat.sub_self now
  rw [books_grant, ht, ha]
  constructor
  · have hk := k.total
    show p.tally.checkoutTime + heldTime now (p.active ++ [(q.grant now r e).1]) ≤ places * now
    rw [heldTime_append, heldTime_cons, hzero]
    exact hk
  · exact k.claimed

theorem metered_takeBack {now places : Nat} {handle : Handle} (l : Ledger none p.books handles)
    (hm : handle ∈ handles) (k : p.books.Metered places now) :
    (p.takeBack now handle.entry).2.books.Metered places now := by
  have hk : p.tally.checkoutTime + heldTime now p.active ≤ places * now := k.total
  have hc : p.tally.claimedTime ≤ p.tally.checkoutTime := k.claimed
  have hvalid (hv : p.status handle.entry.id = .valid) :
      p.tally.checkoutTime + handle.entry.heldFor now +
        heldTime now (p.active.eraseP fun a => a.id == handle.entry.id) ≤ places * now := by
    have herase : (p.active.eraseP fun a => a.id == handle.entry.id) =
        p.active.erase handle.entry := l.erase_lease hm
    have he : handle.entry ∈ p.active := l.running handle hm hv
    rw [herase, Nat.add_assoc, heldTime_erase he]
    exact hk
  refine p.takeBack_cases now handle.entry (motive := fun _ b => b.Metered places now)
    ?retired ?kept ?closed
  case retired =>
    intro hv
    have hl : heldTime now (p.active.eraseP fun a => a.id == handle.entry.id) ≤
        heldTime now p.active := heldTime_eraseP_le _
    constructor
    · show p.tally.checkoutTime + heldTime now (p.active.eraseP _) ≤ places * now
      omega
    · exact hc
  case kept =>
    intro hv hs
    exact ⟨hvalid hv, Nat.le_trans hc (Nat.le_add_right _ _)⟩
  case closed =>
    intro hv hs
    exact ⟨hvalid hv, Nat.le_trans hc (Nat.le_add_right _ _)⟩

end Pool

namespace Service

variable {σ : Type} {s : Service σ}

structure Clocked (places : Nat) (hand : Option Entry) (s : Service σ) : Prop where
  ledger : HasLedger hand s
  fit : s.pool.books.Fit hand
  books : s.pool.books.Metered places s.now

variable [Driver σ]

theorem moves_keep_under (C : Config → Prop) (Inv : Option Entry → Service σ → Prop)
    (hm : ∀ m m', Move m m' → C m.2.pool.config → Inv m.1 m.2 → Inv m'.1 m'.2)
    (m m' : Option Entry × Service σ) (h : Moves m m') (hc : C m.2.pool.config)
    (hi : Inv m.1 m.2) : Inv m'.1 m'.2 := by
  refine (moves_keep (fun hand t => C t.pool.config ∧ Inv hand t) ?_ m m' h ⟨hc, hi⟩).2
  intro m m' h k
  rw [(config_move m m' h).1]
  exact ⟨k.1, hm m m' h k.1 k.2⟩

/-- An invariant whose moves need a condition on the configuration holds as long as the
configuration in force has met it. -/
theorem run_keeps_under (C : Config → Prop) (Inv : Option Entry → Service σ → Prop)
    (hm : ∀ m m', Move m m' → C m.2.pool.config → Inv m.1 m.2 → Inv m'.1 m'.2)
    (hf : ∀ s i c, Inv none s → Inv none (s.forward i c).2)
    (hc : ∀ op s s', Command op s s' → Inv none s → Inv none s') (ops : List (Op σ))
    (s : Service σ) (h : ∀ before, before <+: ops → C (run before s).pool.config)
    (hi : Inv none s) : Inv none (run ops s) := by
  induction ops generalizing s with
  | nil => exact hi
  | cons op rest ih =>
    apply ih (step op s)
    · intro before hb
      exact h (op :: before) (List.cons_prefix_cons.mpr ⟨rfl, hb⟩)
    · rcases step_moves s op with ho | ho | ⟨i, c, rfl, -, ho⟩
      · exact moves_keep_under C Inv hm _ _ ho (h [] List.nil_prefix) hi
      · exact hc op s _ ho hi
      · show Inv none (s.call i c).2
        rw [ho]
        exact hf s i c hi

theorem config_run (ops : List (Op σ)) (s : Service σ)
    (h : ∀ update, Op.reconfigure update ∉ ops) :
    (run ops s).pool.config = s.pool.config := by
  refine run_keeps (fun _ t => t.pool.config = s.pool.config) ?_ ?_ ops ?_ s rfl
  · intro m m' hm hk
    rw [(config_move m m' hm).1, hk]
  · intro t i c _ hk
    rw [(forward_frame t i c).2.2.2, hk]
  · intro op ho t t' hc hk
    cases hc with
    | meddle t f | issueToken t hl => exact hk
    | reset t hl | shutDown t hl hw => exact (Pool.reset_frame t.pool).1.trans hk
    | reconfigure t update hl => exact absurd ho (h update)

theorem clocked_move {places : Nat} (m m' : Option Entry × Service σ) (h : Move m m')
    (hp : m.2.pool.config.maxActive.toNat ≤ places) (k : Clocked places m.1 m.2) :
    Clocked places m'.1 m'.2 := by
  obtain ⟨l, f⟩ := fit_move m m' h ⟨k.ledger, k.fit⟩
  refine ⟨l, f, ?_⟩
  have c := k.books
  cases h with
  | mark s | come s | leave s => exact c
  | pass s now hn =>
    have hfit : 0 + (s.pool.idle.length + s.pool.active.length) ≤ s.pool.config.maxActive.toNat :=
      k.fit.count_le
    have hl : s.pool.active.length ≤ s.pool.config.maxActive.toNat := by omega
    exact c.pass (Nat.le_trans hl hp) hn
  | awake s x | sleep s r hs hc | fail s r error => exact c.congr rfl rfl rfl
  | countWait s r =>
    unfold countWait
    split
    · exact c
    · exact c.congr rfl rfl rfl
  | turn s caller hand hand' q h => exact (Pool.turn_books h).metered c
  | grant s r e q h => exact (Pool.metered_grant h c).congr rfl rfl rfl
  | takeBack s i handle hh hr =>
    exact Pool.metered_takeBack k.ledger (List.mem_of_getElem? hh) c

theorem clocked_command {places : Nat} (op : Op σ) (s s' : Service σ) (h : Command op s s')
    (k : Clocked places none s) : Clocked places none s' := by
  obtain ⟨l, f⟩ := fit_command op s s' h ⟨k.ledger, k.fit⟩
  refine ⟨l, f, ?_⟩
  have ht := tally_command op s s' h
  have hn : s'.now = s.now := by cases h <;> rfl
  obtain ⟨-, -, hb | ⟨config, -, hp⟩⟩ := command_cases op s s' h
  · rw [hb, hn]
    exact k.books
  · rw [hn]
    have ha : s'.pool.active = [] := by
      rw [hp]
      exact (Pool.reset_frame { s.pool with config }).2.2.1
    exact k.books.empty ht ha

theorem clocked_forward {places : Nat} (s : Service σ) (i : Nat) (c : Call)
    (k : Clocked places none s) : Clocked places none (s.forward i c).2 := by
  obtain ⟨l, f⟩ := fit_forward s i c ⟨k.ledger, k.fit⟩
  obtain ⟨hs, hb⟩ := forward_cases s i c
  have hn : (s.forward i c).2.now = s.now := by rw [hs]
  refine ⟨l, f, ?_⟩
  rw [hn]
  rcases hb with hb | ⟨handle, error, -, -, -, -, hb⟩ <;> rw [hb]
  · exact k.books
  · exact k.books.congr rfl rfl rfl

theorem tolled_move {span : Nat} (m m' : Option Entry × Service σ) (h : Move m m')
    (hm : m.2.pool.config.maxCheckout = span) (k : m.2.pool.tally.Tolled span) :
    m'.2.pool.tally.Tolled span := by
  cases h with
  | mark s | come s | pass s | leave s | awake s x | sleep s r hs hc | fail s r error => exact k
  | countWait s r =>
    unfold countWait
    split <;> exact k
  | turn s caller hand hand' q h =>
    subst hm
    exact h.tolled k
  | grant s r e q h =>
    have ht : q.tally = s.pool.tally :=
      congrArg Books.tally (Pool.examine_books s.now r.caller e true s.pool q h)
    have hg : (q.grant s.now r e).2.tally = q.tally.addRequest (s.now - r.startedAt) :=
      congrArg Books.tally (Pool.books_grant s.now r e q)
    show (q.grant s.now r e).2.tally.Tolled span
    rw [hg, ht]
    exact k
  | takeBack s i handle hh hr =>
    exact s.pool.takeBack_cases s.now handle.entry (motive := fun _ b => b.tally.Tolled span)
      (fun _ => k) (fun _ _ => k) (fun _ _ => k)

/-- No lease was counted twice, so at this moment no sum of lease times can be too long to be told,
unless the pool is so old that the time of all its places is. -/
structure Bounded (places : Nat) (s : Service σ) : Prop where
  total : s.pool.tally.checkoutTime + heldTime s.now s.pool.active ≤ places * s.now
  claimed : s.pool.tally.claimedTime ≤ s.pool.tally.checkoutTime
  fits : places * s.now ≤ Nanos.longest →
    s.pool.tally.checkoutTime ≤ Nanos.longest ∧ s.pool.tally.claimedTime ≤ Nanos.longest

omit [Driver σ] in
theorem bounded_of_clocked {places : Nat} {hand : Option Entry} (k : Clocked places hand s) :
    s.Bounded places := by
  have ht : s.pool.tally.checkoutTime + heldTime s.now s.pool.active ≤ places * s.now :=
    k.books.total
  have hc : s.pool.tally.claimedTime ≤ s.pool.tally.checkoutTime := k.books.claimed
  constructor
  · exact ht
  · exact hc
  · intro hf
    omega

/-- While no more than so many connections could be active, lease time is within its bounds after
every step and at every moment of the next one; and if the longest lease was the same throughout,
claimed leases have lasted longer than that each. -/
theorem leaseTime_run (driver : σ) (config : Config) (pool : Pool σ)
    (h : Pool.create driver config = .ok pool) (ops : List (Op σ)) (places : Nat)
    (hp : ∀ before, before <+: ops →
      (run before (start pool)).pool.config.maxActive.toNat ≤ places)
    (m : Option Entry × Service σ) (hm : Moves (none, run ops (start pool)) m) :
    (run ops (start pool)).Bounded places ∧ m.2.Bounded places ∧
      ∀ span, (∀ before, before <+: ops →
          (run before (start pool)).pool.config.maxCheckout = span) →
        0 < m.2.pool.tally.claimed →
          m.2.pool.tally.claimed * span < m.2.pool.tally.claimedTime := by
  have hstart : Clocked places none (start pool) := by
    obtain ⟨l, f⟩ := fit_run driver config pool h []
    refine ⟨l, f, ?_⟩
    rw [Pool.of_create driver config pool h]
    exact ⟨Nat.zero_le _, Nat.le_refl _⟩
  have k := run_keeps_under (fun c => c.maxActive.toNat ≤ places) (Clocked places) clocked_move
    clocked_forward clocked_command ops _ hp hstart
  have km := moves_keep_under (fun c => c.maxActive.toNat ≤ places) (Clocked places) clocked_move
    _ m hm (hp ops List.prefix_rfl) k
  refine ⟨bounded_of_clocked k, bounded_of_clocked km, ?_⟩
  intro span hs hpos
  have htoll : (start pool).pool.tally.Tolled span := by
    rw [Pool.of_create driver config pool h]
    simp [Tally.Tolled, start, Pool.unused]
  have t := run_keeps_under (fun c => c.maxCheckout = span)
    (fun _ t => t.pool.tally.Tolled span) tolled_move
    (fun s i c k => (tally_forward s i c).symm ▸ k)
    (fun op s s' h k => (tally_command op s s' h).symm ▸ k) ops _ hs htoll
  have tm : m.2.pool.tally.Tolled span := moves_keep_under (fun c => c.maxCheckout = span)
    (fun _ t => t.pool.tally.Tolled span) tolled_move _ m hm (hs ops List.prefix_rfl) t
  simp only [Tally.Tolled, Nat.mul_succ] at tm
  omega

/-- The only connection was lent all the time, to one caller for as long as it was let, and the
claim ended that lease: the bound is met exactly. -/
theorem leaseTime_overdueTakeover :
    (run overdueTakeover (start (Pool.unused ({} : Scripted) Config.single))).Bounded 1 ∧
      (run overdueTakeover (start (Pool.unused ({} : Scripted) Config.single))).pool.tally.claimed *
          Config.single.maxCheckout <
        (run overdueTakeover (start (Pool.unused ({} : Scripted)
          Config.single))).pool.tally.claimedTime ∧
      (run overdueTakeover (start (Pool.unused ({} : Scripted)
        Config.single))).pool.tally.checkoutTime = 1 * Nanos.ofSeconds 21 ∧
      (run overdueTakeover (start (Pool.unused ({} : Scripted) Config.single))).now =
        Nanos.ofSeconds 21 := by
  have hc (before : List (Op Scripted)) (hb : before <+: overdueTakeover) :
      (run before (start (Pool.unused ({} : Scripted) Config.single))).pool.config =
        Config.single := by
    apply config_run
    intro update hu
    have hr := hb.subset hu
    simp [overdueTakeover] at hr
  obtain ⟨hb, -, hs⟩ := leaseTime_run ({} : Scripted) Config.single (Pool.unused {} Config.single)
    rfl overdueTakeover 1 (fun before h => by rw [hc before h]; decide) _ .refl
  have hclaimed : 0 < (run overdueTakeover
      (start (Pool.unused ({} : Scripted) Config.single))).pool.tally.claimed := by
    rw [run_overdueTakeover]
    decide +kernel
  refine ⟨hb, ?_, ?_⟩
  · exact hs _ (fun before h => by rw [hc before h]) hclaimed
  · rw [run_overdueTakeover]
    decide +kernel

end Service

end ConnectionPool
