import ConnectionPool.Proofs.Ledger

/-!
# How the ledger is kept

Every turn, every move and every call on a handle preserves the ledger, whatever the driver answers.
So the ledger holds after every run.
-/

set_option autoImplicit false

namespace ConnectionPool

theorem Books.retire_of_retired (id : Nat) (how : Status) (b : Books) (h : b.status id ≠ .valid) :
    b.retire id how = b := by
  unfold Books.retire
  rw [if_neg h]

theorem id_ne_of_mem_erase (entries : List Entry) (hn : (entries.map Entry.id).Nodup) (id : Nat)
    (a : Entry) (ha : a ∈ entries.eraseP fun e => e.id == id) : a.id ≠ id := by
  induction entries with
  | nil => simp at ha
  | cons e rest ih =>
    obtain ⟨he, hr⟩ := List.nodup_cons.mp hn
    by_cases hi : e.id = id
    · rw [List.eraseP_cons_of_pos (by simpa using hi)] at ha
      rintro rfl
      exact he (hi ▸ List.mem_map_of_mem ha)
    · rw [List.eraseP_cons_of_neg (by simpa using hi)] at ha
      rcases List.mem_cons.mp ha with rfl | ha
      · exact hi
      · exact ih hr ha

theorem eraseP_congr_mem {α : Type} (p q : α → Bool) (xs : List α) (h : ∀ x ∈ xs, p x = q x) :
    xs.eraseP p = xs.eraseP q := by
  induction xs with
  | nil => rfl
  | cons x xs ih =>
    have hx := h x List.mem_cons_self
    rw [List.eraseP_cons, List.eraseP_cons, hx, ih fun y hy => h y (List.mem_cons_of_mem x hy)]

namespace Ledger

variable {hand : Option Entry} {b : Books} {handles : List Handle}

theorem active_ids_nodup (l : Ledger hand b handles) : (b.active.map Entry.id).Nodup := by
  have hs : b.active.Sublist (b.held hand) :=
    (List.sublist_append_right _ _).trans (List.sublist_append_right _ _)
  exact l.distinct.ids_nodup.sublist (hs.map _)

theorem mem_active_of_id (l : Ledger hand b handles) {a : Entry} {handle : Handle}
    (ha : a ∈ b.active) (hm : handle ∈ handles) (hi : a.id = handle.entry.id) :
    handle.entry ∈ b.active := by
  obtain ⟨h, hh, rfl, -⟩ := l.leased a ha
  rw [← List.inj_on_of_nodup_map l.handle_ids_nodup hh hm hi]
  exact ha

theorem erase_lease (l : Ledger hand b handles) {handle : Handle} (hm : handle ∈ handles) :
    (b.active.eraseP fun a => a.id == handle.entry.id) = b.active.erase handle.entry := by
  rw [List.erase_eq_eraseP]
  apply eraseP_congr_mem
  intro a ha
  by_cases hi : a.id = handle.entry.id
  · obtain ⟨h, hh, rfl, -⟩ := l.leased a ha
    rw [List.inj_on_of_nodup_map l.handle_ids_nodup hh hm hi]
    simp
  · have hne : handle.entry ≠ a := fun he => hi (he ▸ rfl)
    simp [hi, hne]

theorem endOldest {oldest : Entry} {rest : List Entry} (l : Ledger none b handles)
    (ha : b.active = oldest :: rest) :
    Ledger none { b.retire oldest.id .superseded with active := rest } handles := by
  have ho : oldest ∈ b.active := by rw [ha]; exact List.mem_cons_self
  have hn := l.active_ids_nodup
  rw [ha] at hn
  refine l.endLease ?_ ?_ ?_ ?_ (fun a hi => l.idle_id_ne_active hi ho) (by decide)
  · rw [ha]
    exact List.sublist_cons_self _ _
  · intro a hm hi
    rw [ha] at hm
    rcases List.mem_cons.mp hm with rfl | hm
    · exact absurd rfl hi
    · exact hm
  · intro a hm hi
    exact (List.nodup_cons.mp hn).1 (hi ▸ List.mem_map_of_mem hm)
  · exact l.distinct.id_lt oldest (List.mem_append_right b.idle ho)

theorem takeOver {oldest : Entry} {rest : List Entry} (l : Ledger none b handles)
    (ha : b.active = oldest :: rest) :
    Ledger (some (oldest.successor b.nextEntry))
      { b.retire oldest.id .superseded with active := rest, nextEntry := b.nextEntry + 1 }
      handles := by
  have hp : (oldest :: (b.idle ++ rest)).Perm (b.idle ++ b.active) := by
    rw [ha]
    exact List.perm_middle.symm
  exact (l.endOldest ha).adopt rfl (l.distinct.perm hp).renew

theorem takeOut {i : Nat} {handle : Handle} {how : Status} (l : Ledger none b handles)
    (hh : handles[i]? = some handle) (hw : how ≠ .valid) :
    Ledger none ((b.takeOut handle.entry).retire handle.entry.id how)
      (handles.set i { handle with released := true }) := by
  have hm : handle ∈ handles := List.mem_of_getElem? hh
  have hg := id_ne_of_mem_erase b.active l.active_ids_nodup handle.entry.id
  have he : Ledger none
      { b.retire handle.entry.id how with
        active := b.active.eraseP fun a => a.id == handle.entry.id } handles := by
    refine l.endLease (List.eraseP_sublist) ?_ hg (l.handle_id_lt handle hm)
      (fun a ha => l.idle_id_ne_handle ha hm) hw
    intro a ha hi
    exact (List.mem_eraseP_of_neg (by simpa using hi)).mpr ha
  have hc : Ledger none ((b.takeOut handle.entry).retire handle.entry.id how) handles :=
    he.congr rfl rfl rfl rfl rfl
  exact hc.release hh (fun ha => hg _ ha rfl)

theorem keep {i : Nat} {handle : Handle} (l : Ledger none b handles)
    (hh : handles[i]? = some handle) (hv : b.status handle.entry.id = .valid) :
    Ledger none
      { (b.takeOut handle.entry).retire handle.entry.id .superseded with
        idle := b.idle ++ [handle.entry.successor b.nextEntry]
        nextEntry := b.nextEntry + 1 }
      (handles.set i { handle with released := true }) := by
  have ha := l.running handle (List.mem_of_getElem? hh) hv
  obtain ⟨e, front, back, -, he, hf, hb⟩ := List.exists_of_eraseP
    (p := fun a : Entry => a.id == handle.entry.id) ha (by simp)
  have he : e = handle.entry := by
    have hm : e ∈ b.active := by rw [hf]; simp
    exact l.distinct.id_inj (List.mem_append_right b.idle hm)
      (List.mem_append_right b.idle ha) (by simpa using he)
  subst e
  have hp : (handle.entry :: (b.idle ++ (front ++ back))).Perm (b.idle ++ b.active) := by
    rw [hf, ← List.append_assoc, ← List.append_assoc]
    exact List.perm_middle.symm
  have hd := (l.distinct.perm hp).renew
  rw [← hb] at hd
  exact ((l.takeOut hh (show Status.superseded ≠ .valid by decide)).adopt rfl hd).shelve

end Ledger

theorem Books.Turn.ledger {now caller : Nat} {m m' : Option Entry × Books} {handles : List Handle}
    (h : Turn now caller m m') (l : Ledger m.1 m.2 handles) : Ledger m'.1 m'.2 handles := by
  cases h with
  | pick b e rest hi => exact l.pick hi
  | connect b hi hr =>
    exact (l.adopt rfl (l.distinct.add b.nextLink now)).congr rfl rfl rfl rfl rfl
  | refuse b => exact l
  | claim b oldest rest hi hf ha hv => exact (l.takeOver ha).congr rfl rfl rfl rfl rfl
  | drop b oldest rest hi hf ha hv =>
    have hd := l.endOldest ha
    rw [Books.retire_of_retired oldest.id .superseded b hv] at hd
    exact hd.congr rfl rfl rfl rfl rfl
  | reject b e => exact l.reject.congr rfl rfl rfl rfl rfl

namespace Pool

variable {σ : Type} [Driver σ] {p : Pool σ} {handles : List Handle}

theorem ledger_grant {now : Nat} {r : Request} {e : Entry} {sound : Bool} {q : Pool σ}
    (h : p.examine now r.caller e = (sound, q)) (l : Ledger (some e) p.books handles) :
    Ledger none (q.grant now r e).2.books
      (handles ++ [{ caller := r.caller, entry := (q.grant now r e).1 }]) := by
  have hx : Ledger (some e) q.books handles := by
    rw [examine_books now r.caller e sound p q h]
    exact l.congr rfl rfl rfl rfl rfl
  have hl := hx.lend (Login.typeCode ⟨q.config.url, r.credentials⟩) now r.caller
  rw [books_grant]
  exact hl.congr rfl rfl rfl rfl rfl

theorem ledger_takeBack {now i : Nat} {handle : Handle} (hh : handles[i]? = some handle)
    (l : Ledger none p.books handles) :
    Ledger none (p.takeBack now handle.entry).2.books
      (handles.set i { handle with released := true }) := by
  refine p.takeBack_cases now handle.entry (motive := fun _ b =>
    Ledger none b (handles.set i { handle with released := true })) ?retired ?kept ?closed
  case retired =>
    intro hv
    have ht := l.takeOut hh (show Status.superseded ≠ .valid by decide)
    have hv' : (p.books.takeOut handle.entry).status handle.entry.id ≠ .valid := hv
    rw [Books.retire_of_retired _ _ _ hv'] at ht
    exact ht.congr rfl rfl rfl rfl rfl
  case kept =>
    intro hv hk
    exact (l.keep hh hv).congr rfl rfl rfl rfl rfl
  case closed =>
    intro hv hk
    exact (l.takeOut hh (show Status.invalidated ≠ .valid by decide)).congr rfl rfl rfl rfl rfl

theorem ledger_reset (l : Ledger none p.books handles) : Ledger none p.reset.books handles := by
  obtain ⟨-, hi, ha, hn, -⟩ := reset_frame p
  exact l.empty hi ha hn (status_reset p)

theorem ledger_reconfigure (update : Config → Config) (l : Ledger none p.books handles) :
    Ledger none (p.reconfigure update).2.books handles := by
  have hc : Ledger none { p with config := update p.config }.books handles :=
    l.congr rfl rfl rfl rfl rfl
  exact p.reconfigure_cases update (motive := fun q => Ledger none q.books handles) l
    (ledger_reset hc)

end Pool

namespace Service

variable {σ : Type}

def HasLedger (hand : Option Entry) (s : Service σ) : Prop :=
  Ledger hand s.pool.books s.handles

theorem ledger_start (driver : σ) (config : Config) (pool : Pool σ)
    (h : Pool.create driver config = .ok pool) : HasLedger none (start pool) := by
  rw [Pool.of_create driver config pool h]
  constructor <;> simp [Books.held, Pool.books, start, Pool.unused, Books.status]
  exact ⟨List.nodup_nil, List.nodup_nil, by simp, by simp⟩

variable [Driver σ]

theorem ledger_move (m m' : Option Entry × Service σ) (h : Move m m') (l : HasLedger m.1 m.2) :
    HasLedger m'.1 m'.2 := by
  cases h with
  | mark s | come s | pass s | leave s => exact l
  | awake s x | sleep s r hs hc | fail s r error => exact l.congr rfl rfl rfl rfl rfl
  | countWait s r =>
    unfold countWait
    split
    · exact l
    · exact l.congr rfl rfl rfl rfl rfl
  | turn s caller hand hand' q h => exact (Pool.turn_books h).ledger l
  | grant s r e q h => exact (Pool.ledger_grant h l).congr rfl rfl rfl rfl rfl
  | takeBack s i handle hh hr => exact Pool.ledger_takeBack hh l

theorem ledger_command (op : Op σ) (s s' : Service σ) (h : Command op s s')
    (l : HasLedger none s) : HasLedger none s' := by
  cases h with
  | meddle s f => exact l.congr rfl rfl rfl rfl rfl
  | issueToken s hl => exact l
  | reset s hl | shutDown s hl hw => exact Pool.ledger_reset l
  | reconfigure s update hl => exact Pool.ledger_reconfigure update l

theorem ledger_forward (s : Service σ) (h : Nat) (c : Call) (l : HasLedger none s) :
    HasLedger none (s.forward h c).2 := by
  obtain ⟨hs, hb⟩ := forward_cases s h c
  have hm : (s.forward h c).2.handles = s.handles := by rw [hs]
  unfold HasLedger
  rw [hm]
  rcases hb with hb | ⟨handle, error, hh, hv, -, -, hb⟩
  · rw [hb]
    exact l
  · rw [hb]
    exact l.spoil (l.running handle (List.mem_of_getElem? hh) (status_of_isValid handle s hv))

theorem ledger_run (ops : List (Op σ)) (s : Service σ) (l : HasLedger none s) :
    HasLedger none (run ops s) :=
  run_keeps HasLedger ledger_move (fun s h c _ => ledger_forward s h c) ops
    (fun op _ => ledger_command op) s l

end Service

end ConnectionPool
