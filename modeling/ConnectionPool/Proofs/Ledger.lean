import ConnectionPool.Proofs.Moves
import Mathlib.Data.List.Nodup

/-!
# The ledger

The ledger says how entries, channels and handles hang together at every moment. The entries that a
pool holds, the one in a caller's hand included, have ids and channels of their own. Those in hand
or idle are valid; an active one is never superseded, and belongs to a handle that is still out. A
handle whose entry is valid has it among the active ones. Each move preserves the ledger, whatever
the driver answers.
-/

set_option autoImplicit false

namespace ConnectionPool

/-- No two entries share an id or a channel, and all were issued. -/
structure Distinct (entries : List Entry) (ids channels : Nat) : Prop where
  ids_nodup : (entries.map Entry.id).Nodup
  channels_nodup : (entries.map Entry.channel).Nodup
  id_lt : ∀ e ∈ entries, e.id < ids
  channel_lt : ∀ e ∈ entries, e.channel < channels

namespace Distinct

variable {entries other : List Entry} {ids channels : Nat}

theorem sublist (h : Distinct entries ids channels) (hs : other.Sublist entries) :
    Distinct other ids channels where
  ids_nodup := h.ids_nodup.sublist (hs.map _)
  channels_nodup := h.channels_nodup.sublist (hs.map _)
  id_lt e he := h.id_lt e (hs.subset he)
  channel_lt e he := h.channel_lt e (hs.subset he)

theorem perm (h : Distinct entries ids channels) (hp : other.Perm entries) :
    Distinct other ids channels where
  ids_nodup := (hp.map _).nodup_iff.mpr h.ids_nodup
  channels_nodup := (hp.map _).nodup_iff.mpr h.channels_nodup
  id_lt e he := h.id_lt e (hp.subset he)
  channel_lt e he := h.channel_lt e (hp.subset he)

theorem id_inj (h : Distinct entries ids channels) {a b : Entry} (ha : a ∈ entries)
    (hb : b ∈ entries) (he : a.id = b.id) : a = b :=
  List.inj_on_of_nodup_map h.ids_nodup ha hb he

theorem channel_inj (h : Distinct entries ids channels) {a b : Entry} (ha : a ∈ entries)
    (hb : b ∈ entries) (he : a.channel = b.channel) : a = b :=
  List.inj_on_of_nodup_map h.channels_nodup ha hb he

theorem replace {e e' : Entry} (h : Distinct (e :: entries) ids channels) (hi : e'.id = e.id)
    (hc : e'.channel = e.channel) : Distinct (e' :: entries) ids channels where
  ids_nodup := by simpa [hi] using h.ids_nodup
  channels_nodup := by simpa [hc] using h.channels_nodup
  id_lt a ha := by
    rcases List.mem_cons.mp ha with rfl | ha
    · exact hi ▸ h.id_lt e List.mem_cons_self
    · exact h.id_lt a (List.mem_cons_of_mem _ ha)
  channel_lt a ha := by
    rcases List.mem_cons.mp ha with rfl | ha
    · exact hc ▸ h.channel_lt e List.mem_cons_self
    · exact h.channel_lt a (List.mem_cons_of_mem _ ha)

theorem renew {e : Entry} (h : Distinct (e :: entries) ids channels) :
    Distinct (e.successor ids :: entries) (ids + 1) channels where
  ids_nodup := by
    obtain ⟨-, hn⟩ := List.nodup_cons.mp h.ids_nodup
    refine List.nodup_cons.mpr ⟨?_, hn⟩
    intro hm
    obtain ⟨a, ha, hi⟩ := List.mem_map.mp hm
    have hl := h.id_lt a (List.mem_cons_of_mem _ ha)
    change a.id = ids at hi
    omega
  channels_nodup := h.channels_nodup
  id_lt a ha := by
    rcases List.mem_cons.mp ha with rfl | ha
    · exact Nat.lt_succ_self _
    · exact Nat.lt_succ_of_lt (h.id_lt a (List.mem_cons_of_mem _ ha))
  channel_lt a ha := by
    rcases List.mem_cons.mp ha with rfl | ha
    · exact h.channel_lt e List.mem_cons_self
    · exact h.channel_lt a (List.mem_cons_of_mem _ ha)

theorem add (h : Distinct entries ids channels) (number now : Nat) :
    Distinct (Entry.fresh ids ⟨number, channels⟩ now :: entries) (ids + 1) (channels + 1) where
  ids_nodup := by
    refine List.nodup_cons.mpr ⟨?_, h.ids_nodup⟩
    intro hm
    obtain ⟨a, ha, hi⟩ := List.mem_map.mp hm
    have hl := h.id_lt a ha
    change a.id = ids at hi
    omega
  channels_nodup := by
    refine List.nodup_cons.mpr ⟨?_, h.channels_nodup⟩
    intro hm
    obtain ⟨a, ha, hi⟩ := List.mem_map.mp hm
    have hl := h.channel_lt a ha
    change a.channel = channels at hi
    omega
  id_lt a ha := by
    rcases List.mem_cons.mp ha with rfl | ha
    · exact Nat.lt_succ_self _
    · exact Nat.lt_succ_of_lt (h.id_lt a ha)
  channel_lt a ha := by
    rcases List.mem_cons.mp ha with rfl | ha
    · exact Nat.lt_succ_self _
    · exact Nat.lt_succ_of_lt (h.channel_lt a ha)

end Distinct

/-- The entries that a pool holds, and the one in a caller's hand. -/
def Books.held (hand : Option Entry) (b : Books) : List Entry := hand.toList ++ (b.idle ++ b.active)

theorem map_released {α : Type} (f : Handle → α) {handles : List Handle} {i : Nat}
    {handle : Handle} (hh : handles[i]? = some handle)
    (hf : f { handle with released := true } = f handle) :
    (handles.set i { handle with released := true }).map f = handles.map f := by
  obtain ⟨hi, rfl⟩ := List.getElem?_eq_some_iff.mp hh
  have hl : i < (handles.map f).length := by simpa using hi
  have hs := List.set_getElem_self hl
  rw [List.getElem_map] at hs
  rw [List.map_set, hf]
  exact hs

structure Ledger (hand : Option Entry) (b : Books) (handles : List Handle) : Prop where
  distinct : Distinct (b.held hand) b.nextEntry b.record.opened
  unissued : ∀ id, b.nextEntry ≤ id → b.status id = .valid
  ready : ∀ e ∈ hand.toList ++ b.idle, b.status e.id = .valid
  lent : ∀ e ∈ b.active, b.status e.id ≠ .superseded
  handle_id_lt : ∀ h ∈ handles, h.entry.id < b.nextEntry
  handle_ids_nodup : (handles.map fun h => h.entry.id).Nodup
  leased : ∀ e ∈ b.active, ∃ h ∈ handles, h.entry = e ∧ h.released = false
  running : ∀ h ∈ handles, b.status h.entry.id = .valid → h.entry ∈ b.active

namespace Ledger

variable {hand : Option Entry} {b : Books} {handles : List Handle}

theorem congr {b' : Books} (l : Ledger hand b handles) (hi : b'.idle = b.idle)
    (ha : b'.active = b.active) (hr : b'.retired = b.retired) (hn : b'.nextEntry = b.nextEntry)
    (ho : b'.record.opened = b.record.opened) : Ledger hand b' handles := by
  have hs (id : Nat) : b'.status id = b.status id := by simp [Books.status, hr]
  have hh : b'.held hand = b.held hand := by simp [Books.held, hi, ha]
  constructor
  · rw [hh, hn, ho]
    exact l.distinct
  · intro id h
    rw [hs]
    exact l.unissued id (hn ▸ h)
  · intro e he
    rw [hs]
    exact l.ready e (hi ▸ he)
  · intro e he
    rw [hs]
    exact l.lent e (ha ▸ he)
  · intro h hm
    rw [hn]
    exact l.handle_id_lt h hm
  · exact l.handle_ids_nodup
  · intro e he
    exact l.leased e (ha ▸ he)
  · intro h hm hv
    rw [ha]
    exact l.running h hm (hs _ ▸ hv)

theorem pick {e : Entry} {rest : List Entry} (l : Ledger none b handles) (hi : b.idle = e :: rest) :
    Ledger (some e) { b with idle := rest } handles where
  distinct := by simpa [Books.held, hi] using l.distinct
  unissued := l.unissued
  ready a ha := l.ready a (by simpa [hi] using ha)
  lent := l.lent
  handle_id_lt := l.handle_id_lt
  handle_ids_nodup := l.handle_ids_nodup
  leased := l.leased
  running := l.running

theorem adopt {e : Entry} {channels : Nat} (l : Ledger none b handles) (hi : e.id = b.nextEntry)
    (hd : Distinct (e :: b.held none) (b.nextEntry + 1) channels) :
    Ledger (some e)
      { b with nextEntry := b.nextEntry + 1, record := { b.record with opened := channels } }
      handles where
  distinct := hd
  unissued id h := l.unissued id (Nat.le_of_succ_le h)
  ready a ha := by
    rcases List.mem_cons.mp ha with rfl | ha
    · exact l.unissued _ (Nat.le_of_eq hi.symm)
    · exact l.ready a ha
  lent := l.lent
  handle_id_lt h hm := Nat.lt_succ_of_lt (l.handle_id_lt h hm)
  handle_ids_nodup := l.handle_ids_nodup
  leased := l.leased
  running := l.running

theorem shelve {e : Entry} (l : Ledger (some e) b handles) :
    Ledger none { b with idle := b.idle ++ [e] } handles where
  distinct := l.distinct.perm (by simp [Books.held])
  unissued := l.unissued
  ready a ha := l.ready a (by simpa [or_comm] using ha)
  lent := l.lent
  handle_id_lt := l.handle_id_lt
  handle_ids_nodup := l.handle_ids_nodup
  leased := l.leased
  running := l.running

theorem hand_id_ne {e a : Entry} (l : Ledger (some e) b handles) (ha : a ∈ b.idle ++ b.active) :
    a.id ≠ e.id := by
  intro h
  have hn : e.id ∉ (b.idle ++ b.active).map Entry.id := (List.nodup_cons.mp l.distinct.ids_nodup).1
  exact hn (h ▸ List.mem_map_of_mem ha)

theorem handle_id_ne {e : Entry} (l : Ledger (some e) b handles) (h : Handle) (hm : h ∈ handles) :
    h.entry.id ≠ e.id := by
  intro he
  have hv : b.status h.entry.id = .valid := he ▸ l.ready e List.mem_cons_self
  exact l.hand_id_ne (List.mem_append_right _ (l.running h hm hv)) he

theorem reject {e : Entry} (l : Ledger (some e) b handles) :
    Ledger none (b.retire e.id .invalidated) handles where
  distinct := l.distinct.sublist (List.sublist_cons_self _ _)
  unissued id h := by
    have he := l.distinct.id_lt e List.mem_cons_self
    rw [Books.status_retire_ne _ _ _ _ (by change b.nextEntry ≤ id at h; omega)]
    exact l.unissued id h
  ready a ha := by
    rw [Books.status_retire_ne _ _ _ _ (l.hand_id_ne (List.mem_append_left _ ha))]
    exact l.ready a (List.mem_cons_of_mem _ ha)
  lent a ha := by
    rw [Books.status_retire_ne _ _ _ _ (l.hand_id_ne (List.mem_append_right _ ha))]
    exact l.lent a ha
  handle_id_lt := l.handle_id_lt
  handle_ids_nodup := l.handle_ids_nodup
  leased := l.leased
  running h hm hv := l.running h hm (Books.of_valid_retire _ _ _ _ (by decide) hv).2

theorem lend {e : Entry} (l : Ledger (some e) b handles) (code : UInt64) (now caller : Nat) :
    Ledger none { b with active := b.active ++ [e.lent code now] }
      (handles ++ [{ caller, entry := e.lent code now }]) where
  distinct := by
    have hd : Distinct (e.lent code now :: (b.idle ++ b.active)) b.nextEntry b.record.opened :=
      l.distinct.replace rfl rfl
    apply hd.perm
    show (b.idle ++ (b.active ++ [e.lent code now])).Perm _
    rw [← List.append_assoc]
    exact List.perm_append_singleton _ _
  unissued := l.unissued
  ready a ha := l.ready a (List.mem_cons_of_mem _ ha)
  lent a ha := by
    rcases List.mem_append.mp ha with ha | ha
    · exact l.lent a ha
    · rw [List.mem_singleton.mp ha]
      have hv := l.ready e List.mem_cons_self
      show b.status e.id ≠ .superseded
      rw [hv]
      decide
  handle_id_lt h hm := by
    rcases List.mem_append.mp hm with hm | hm
    · exact l.handle_id_lt h hm
    · rw [List.mem_singleton.mp hm]
      exact l.distinct.id_lt e List.mem_cons_self
  handle_ids_nodup := by
    rw [List.map_append, List.nodup_append]
    refine ⟨l.handle_ids_nodup, by simp, ?_⟩
    intro i hi j hj
    obtain ⟨h, hm, rfl⟩ := List.mem_map.mp hi
    rw [List.mem_singleton.mp hj]
    exact l.handle_id_ne h hm
  leased a ha := by
    rcases List.mem_append.mp ha with ha | ha
    · obtain ⟨h, hm, he⟩ := l.leased a ha
      exact ⟨h, List.mem_append_left _ hm, he⟩
    · rw [List.mem_singleton.mp ha]
      exact ⟨_, List.mem_append_right _ List.mem_cons_self, rfl, rfl⟩
  running h hm hv := by
    rcases List.mem_append.mp hm with hm | hm
    · exact List.mem_append_left _ (l.running h hm hv)
    · rw [List.mem_singleton.mp hm]
      exact List.mem_append_right _ List.mem_cons_self

theorem endLease {e : Entry} {active : List Entry} {how : Status} (l : Ledger none b handles)
    (hs : active.Sublist b.active) (hk : ∀ a ∈ b.active, a.id ≠ e.id → a ∈ active)
    (hg : ∀ a ∈ active, a.id ≠ e.id) (he : e.id < b.nextEntry) (hi : ∀ a ∈ b.idle, a.id ≠ e.id)
    (hw : how ≠ .valid) : Ledger none { b.retire e.id how with active } handles where
  distinct := l.distinct.sublist (hs.append_left b.idle)
  unissued id h := by
    have hl := Books.status_retire_ne e.id how b id (by change b.nextEntry ≤ id at h; omega)
    exact hl.trans (l.unissued id h)
  ready a ha := (Books.status_retire_ne e.id how b a.id (hi a ha)).trans (l.ready a ha)
  lent a ha := by
    have hl := Books.status_retire_ne e.id how b a.id (hg a ha)
    exact fun h => l.lent a (hs.subset ha) (hl.symm.trans h)
  handle_id_lt := l.handle_id_lt
  handle_ids_nodup := l.handle_ids_nodup
  leased a ha := l.leased a (hs.subset ha)
  running h hm hv := by
    obtain ⟨hn, hv⟩ := Books.of_valid_retire e.id how b h.entry.id hw hv
    exact hk _ (l.running h hm hv) hn

theorem release {i : Nat} {handle : Handle} (l : Ledger hand b handles)
    (hh : handles[i]? = some handle) (hn : handle.entry ∉ b.active) :
    Ledger hand b (handles.set i { handle with released := true }) where
  distinct := l.distinct
  unissued := l.unissued
  ready := l.ready
  lent := l.lent
  handle_id_lt h hm := by
    rcases List.mem_or_eq_of_mem_set hm with hm | rfl
    · exact l.handle_id_lt h hm
    · exact l.handle_id_lt handle (List.mem_of_getElem? hh)
  handle_ids_nodup := by
    rw [map_released (fun h => h.entry.id) hh rfl]
    exact l.handle_ids_nodup
  leased e he := by
    obtain ⟨h, hm, rfl, hr⟩ := l.leased e he
    obtain ⟨j, hj⟩ := List.getElem?_of_mem hm
    have hji : i ≠ j := by
      rintro rfl
      rw [hh] at hj
      exact hn (Option.some.inj hj ▸ he)
    exact ⟨h, List.mem_of_getElem? ((List.getElem?_set_ne hji).trans hj), rfl, hr⟩
  running h hm hv := by
    rcases List.mem_or_eq_of_mem_set hm with hm | rfl
    · exact l.running h hm hv
    · exact l.running handle (List.mem_of_getElem? hh) hv

theorem idle_id_ne_active (l : Ledger hand b handles) {a e : Entry} (ha : a ∈ b.idle)
    (he : e ∈ b.active) : a.id ≠ e.id := by
  have hn := l.distinct.ids_nodup
  rw [Books.held, List.map_append, List.map_append] at hn
  have hd := List.nodup_append.mp (List.nodup_append.mp hn).2.1
  exact hd.2.2 _ (List.mem_map_of_mem ha) _ (List.mem_map_of_mem he)

theorem idle_id_ne_handle (l : Ledger hand b handles) {a : Entry} {h : Handle} (ha : a ∈ b.idle)
    (hm : h ∈ handles) : a.id ≠ h.entry.id := by
  intro he
  have hv : b.status h.entry.id = .valid := he ▸ l.ready a (List.mem_append_right _ ha)
  exact l.idle_id_ne_active ha (l.running h hm hv) he

theorem spoil {e : Entry} (l : Ledger none b handles) (he : e ∈ b.active) :
    Ledger none (b.retire e.id .invalidated) handles where
  distinct := l.distinct
  unissued id h := by
    have hl := l.distinct.id_lt e (List.mem_append_right b.idle he)
    rw [Books.status_retire_ne _ _ _ _ (by change b.nextEntry ≤ id at h; omega)]
    exact l.unissued id h
  ready a ha := by
    rw [Books.status_retire_ne _ _ _ _ (l.idle_id_ne_active ha he)]
    exact l.ready a ha
  lent a ha := by
    rw [Books.status_retire]
    split
    · decide
    · exact l.lent a ha
  handle_id_lt := l.handle_id_lt
  handle_ids_nodup := l.handle_ids_nodup
  leased := l.leased
  running h hm hv := l.running h hm (Books.of_valid_retire _ _ _ _ (by decide) hv).2

theorem empty {b' : Books} (l : Ledger none b handles) (hi : b'.idle = []) (ha : b'.active = [])
    (hn : b'.nextEntry = b.nextEntry)
    (hs : ∀ id, b'.status id = if id ∈ (b.idle ++ b.active).map Entry.id ∧ b.status id = .valid
      then .invalidated else b.status id) : Ledger none b' handles where
  distinct := by
    have hh : b'.held none = [] := by simp [Books.held, hi, ha]
    rw [hh]
    exact ⟨List.nodup_nil, List.nodup_nil, by simp, by simp⟩
  unissued id h := by
    rw [hs, if_neg]
    · exact l.unissued id (hn ▸ h)
    · rintro ⟨hm, -⟩
      obtain ⟨e, he, rfl⟩ := List.mem_map.mp hm
      have hl := l.distinct.id_lt e he
      omega
  ready e he := by simp [hi] at he
  lent e he := by simp [ha] at he
  handle_id_lt h hm := hn ▸ l.handle_id_lt h hm
  handle_ids_nodup := l.handle_ids_nodup
  leased e he := by simp [ha] at he
  running h hm hv := by
    rw [hs] at hv
    split at hv
    · exact absurd hv (by decide)
    · rename_i hc
      have he := List.mem_append_right b.idle (l.running h hm hv)
      exact absurd ⟨List.mem_map_of_mem he, hv⟩ hc

end Ledger

end ConnectionPool
