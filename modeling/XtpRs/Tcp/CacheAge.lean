import XtpRs.Tcp.Connection

/-!
# The age of a cached upstream

A proxied connection uses the upstream that the cache holds for its key, or has one selected by
`pick_and_connect`, and writes the upstream it has connected through into the cache. The entry
carries the clock reading of that write. After a cache hit the same upstream is written again, with
a new clock reading and without a new selection, so the age of an entry is not the age of a
selection: the time to live ends twice, once counted from the selection and once from the last
write. The write of a connection that has had its upstream selected comes a little later than the
selection too, since it reads the clock itself.

A history records, besides the connections, what `pick_and_connect` has returned for which key and
what the clock read then.

## Main definitions

* `History`, `History.step`: the connections and the selections made.
* `History.RecentAt`: what a look-up is served was selected within the time to live.
* `History.Overstays`: a look-up falls between the two ends of the time to live.
* `History.Prompt`: a write comes within a time of a selection of what it writes.

## Main results

* `cached_upstream_recent`: in every state reached a look-up is served recent selections only,
  exactly if it does not fall between the two ends.
* `overstays_late`: where every write is prompt, a look-up does not fall there except at the end of
  the time to live.
-/

namespace XtpRs.Tcp

open Lib Routing Upstream

variable {parseIpNet : Str → Option IpNet} {app : AppState parseIpNet} {mode : UInt8}

/-- The key of a connection in the cache of upstreams. -/
def Conn.upstreamKey (conn : Conn) (domain : Option Str) : UpstreamKey :=
  (conn.clientAddr.ip, conn.origDst.ip, normalizeDomain domain)

/-- The returns of `pick_and_connect`: the key, the upstream and the reading of the clock. -/
abbrev Selections := List (UpstreamKey × Upstream × ℕ)

/-- The connections, and what `pick_and_connect` has returned. -/
structure History where
  st : St
  selections : Selections := []

/-- What `pick_and_connect` selects in an action at the clock reading `now`. -/
def St.selected (st : St) (now : ℕ) : Action → Option (UpstreamKey × Upstream × ℕ)
  | .advance id (.connectGroup (some up)) =>
    match st.conns.lookup id with
    | none => none
    | some conn =>
      match conn.point with
      | .connecting domain _ _ => some (conn.upstreamKey domain, up, now)
      | _ => none
  | _ => none

/-- What an action writes to the cache of upstreams: key, upstream and clock reading. -/
def St.written (st : St) : Action → Option (UpstreamKey × Upstream × ℕ)
  | .advance id (.cache _ now) =>
    match st.conns.lookup id with
    | none => none
    | some conn =>
      match conn.point with
      | .connected domain up => some (conn.upstreamKey domain, up, now)
      | _ => none
  | _ => none

namespace History

/-- No connection has been accepted. -/
def new (mode : UInt8) : History where
  st := .new mode

/-- A step of the connections at a reading of the clock. -/
def step (app : AppState parseIpNet) (hist : History) (a : Action × ℕ) : Option History :=
  (Tcp.step app hist.st a.1).map fun st =>
    { st, selections := (hist.st.selected a.2 a.1).toList ++ hist.selections }

/-- What `get_cached_upstream` supplies at the reading `now` was selected by `pick_and_connect`, for
the same key, later than the time to live before. -/
def RecentAt (app : AppState parseIpNet) (hist : History) (now : ℕ) (clientIp targetIp : IpAddr)
    (domain : Option Str) : Prop :=
  ∀ up, (app.getCachedUpstream hist.st.shared.upstreamCache now clientIp targetIp domain).1 =
      some up →
    ∃ s, ((clientIp, targetIp, normalizeDomain domain), up, s) ∈ hist.selections ∧
      now < s + app.routeCacheTtl

/-- What `get_cached_upstream` supplies is recent, whenever and for whatever key it is called. -/
def Recent (app : AppState parseIpNet) (hist : History) : Prop :=
  ∀ now clientIp targetIp domain, hist.RecentAt app now clientIp targetIp domain

/-- The clock reading at which `pick_and_connect` last returned the upstream for the key. -/
def lastSelected (hist : History) (key : UpstreamKey) (up : Upstream) : Option ℕ :=
  ((hist.selections.filter fun sel => sel.1 = key ∧ sel.2.1 = up).map fun sel => sel.2.2).max?

/-- A look-up at the reading `now` comes when the time to live is over, counted from the last
selection of the upstream in the entry, but not yet, counted from the last write of the entry. -/
def Overstays (app : AppState parseIpNet) (hist : History) (key : UpstreamKey) (now : ℕ) : Prop :=
  ∃ up written selected, hist.st.shared.upstreamCache.lookup key = some (up, written) ∧
    hist.lastSelected key up = some selected ∧
    selected + app.routeCacheTtl ≤ now ∧ now - written < app.routeCacheTtl

/-- If the action writes to the cache, `pick_and_connect` has returned the upstream for the key at
most `d` before the clock reading of the write. -/
def Prompt (app : AppState parseIpNet) (d : ℕ) (hist : History) (a : Action × ℕ) : Prop :=
  app.routeCacheTtl ≠ 0 → ∀ w ∈ hist.st.written a.1, ∃ sel ∈ hist.selections,
    sel.1 = w.1 ∧ sel.2.1 = w.2.1 ∧ w.2.2 ≤ sel.2.2 + d

end History

/-- The steps up to the decision leave the cache of upstreams alone. -/
theorem Conn.upstreamCache_of_runStep {sh sh' : Shared} {conn conn' : Conn} {clock : Readings}
    (h : conn.runStep app sh clock = some (sh', conn')) : sh'.upstreamCache = sh.upstreamCache := by
  unfold Conn.runStep at h
  split at h
  · cases h
    rfl
  · cases h
    rfl
  · split_ifs at h
    all_goals
      cases h
      rfl
  · split_ifs at h
    all_goals
      cases h
      rfl
  · cases h
    rfl
  · cases h

/-- Every step other than a write keeps what holds of the entries of the cache of upstreams. -/
theorem Conn.all_upstreamCache_of_step {P : UpstreamKey → Upstream → ℕ → Prop} {sh sh' : Shared}
    {conn conn' : Conn} {event : Event} (hall : sh.upstreamCache.All P)
    (hevent : ∀ retain now, event ≠ .cache retain now)
    (h : conn.step app sh event = some (sh', conn')) : sh'.upstreamCache.All P := by
  cases event with
  | run clock => exact (Conn.upstreamCache_of_runStep h) ▸ hall
  | connect ok =>
    unfold Conn.step at h
    dsimp only at h
    split at h
    · cases h
      exact hall
    · split_ifs at h
      · cases h
        exact hall
      · cases h
        exact hall.erase _
    · cases h
  | getCached now =>
    unfold Conn.step at h
    dsimp only at h
    split at h
    · cases h
    · cases h
      unfold AppState.getCachedUpstream
      dsimp only
      split_ifs
      · exact hall
      · exact hall.get_snd
    · cases h
  | connectGroup result =>
    unfold Conn.step at h
    dsimp only at h
    split at h
    · cases h
      exact hall
    · cases h
  | cache retain now => exact absurd rfl (hevent retain now)

/-- A write puts the upstream that the connection has connected through into the cache. -/
theorem Conn.upstreamCache_of_cache {sh sh' : Shared} {conn conn' : Conn}
    {retain : UpstreamKey → ℕ} {now : ℕ}
    (h : conn.step app sh (.cache retain now) = some (sh', conn')) :
    ∃ domain up, conn.point = .connected domain up ∧
      sh'.upstreamCache = app.cacheUpstream sh.upstreamCache retain now conn.clientAddr.ip
        conn.origDst.ip domain up := by
  unfold Conn.step at h
  dsimp only at h
  split at h
  · rename_i domain up hpoint
    cases h
    exact ⟨domain, up, hpoint, rfl⟩
  · cases h

namespace History

variable {hist hist' : History} {a : Action × ℕ}

theorem selections_subset_of_step (h : hist.step app a = some hist') :
    hist.selections ⊆ hist'.selections := by
  obtain ⟨st, -, rfl⟩ := Option.map_eq_some_iff.mp h
  exact List.subset_append_right _ _

/-- What a write to the cache leaves. -/
theorem of_step_cache {id now time : ℕ} {retain : UpstreamKey → ℕ}
    (h : hist.step app (.advance id (.cache retain now), time) = some hist') :
    hist'.selections = hist.selections ∧
      ∃ (conn : Conn) (domain : Option Str) (up : Upstream),
      hist.st.written (.advance id (.cache retain now)) =
        some (conn.upstreamKey domain, up, now) ∧
      hist'.st.shared.upstreamCache =
        app.cacheUpstream hist.st.shared.upstreamCache retain now conn.clientAddr.ip
          conn.origDst.ip domain up := by
  obtain ⟨st, hst, rfl⟩ := Option.map_eq_some_iff.mp h
  unfold Tcp.step at hst
  dsimp only at hst
  split at hst
  · cases hst
  · rename_i conn hconn
    obtain ⟨⟨sh, conn'⟩, hr, rfl⟩ := Option.map_eq_some_iff.mp hst
    obtain ⟨domain, up, hpoint, hcache⟩ := Conn.upstreamCache_of_cache hr
    refine ⟨rfl, conn, domain, up, ?_, hcache⟩
    rw [St.written, hconn]
    dsimp only
    rw [hpoint]

/-- Every action other than a write keeps what holds of the entries of the cache of upstreams. -/
theorem all_upstreamCache_of_step {P : UpstreamKey → Upstream → ℕ → Prop}
    (hall : hist.st.shared.upstreamCache.All P)
    (ha : ∀ id retain now, a.1 ≠ .advance id (.cache retain now))
    (h : hist.step app a = some hist') : hist'.st.shared.upstreamCache.All P := by
  obtain ⟨st, hst, rfl⟩ := Option.map_eq_some_iff.mp h
  obtain ⟨action, time⟩ := a
  cases action with
  | accept id clientAddr origDst sniffResult =>
    unfold Tcp.step at hst
    dsimp only at hst
    split_ifs at hst
    cases hst
    exact hall
  | advance id event =>
    unfold Tcp.step at hst
    dsimp only at hst
    split at hst
    · cases hst
    · obtain ⟨⟨sh, conn'⟩, hr, rfl⟩ := Option.map_eq_some_iff.mp hst
      refine Conn.all_upstreamCache_of_step hall (fun retain now hevent => ?_) hr
      exact ha id retain now (by rw [hevent])

end History

/-! ### Every entry has been selected -/

/-- `pick_and_connect` has returned the upstream for the key. -/
def Selections.Has (sels : Selections) (key : UpstreamKey) (up : Upstream) : Prop :=
  ∃ s, (key, up, s) ∈ sels

theorem Selections.Has.mono {sels sels' : Selections} {key : UpstreamKey} {up : Upstream}
    (h : sels.Has key up) (hsub : sels ⊆ sels') : sels'.Has key up := by
  obtain ⟨s, hs⟩ := h
  exact ⟨s, hsub hs⟩

/-- The upstream that a connection holds has been selected for its key. -/
def Conn.Picked (sels : Selections) (conn : Conn) : Prop :=
  match conn.point with
  | .cachedUpstream domain up | .connected domain up => sels.Has (conn.upstreamKey domain) up
  | _ => True

section Picked

variable {sels : Selections} {sh sh' : Shared} {conn conn' : Conn} {event : Event} {now : ℕ}

theorem Conn.Picked.mono {sels' : Selections} (h : conn.Picked sels) (hsub : sels ⊆ sels') :
    conn.Picked sels' := by
  unfold Conn.Picked at h ⊢
  split at h
  · exact h.mono hsub
  · exact h.mono hsub
  · trivial

/-- The steps up to the decision end at points without an upstream. -/
theorem Conn.picked_of_runStep {clock : Readings}
    (h : conn.runStep app sh clock = some (sh', conn')) : conn'.Picked sels := by
  unfold Conn.runStep at h
  split at h
  · cases h
    trivial
  · cases h
    trivial
  · split_ifs at h
    all_goals
      cases h
      trivial
  · split_ifs at h
    all_goals
      cases h
      trivial
  · cases h
    trivial
  · cases h

/-- What `pick_and_connect` selects for the connection in an event is in the list. -/
def Conn.Records (sels : Selections) (conn : Conn) (event : Event) : Prop :=
  ∀ up domain group exclude, event = .connectGroup (some up) →
    conn.point = .connecting domain group exclude → sels.Has (conn.upstreamKey domain) up

/-- **One step of a connection.** An upstream comes from an entry of the cache or is selected in the
step. -/
theorem Conn.Picked.step (h : conn.Picked sels)
    (hcache : sh.upstreamCache.All fun key up _ => sels.Has key up)
    (hrec : conn.Records sels event) (hstep : conn.step app sh event = some (sh', conn')) :
    conn'.Picked sels := by
  have hpicked := h
  unfold Conn.Picked at hpicked
  cases event with
  | run clock => exact Conn.picked_of_runStep hstep
  | connect ok =>
    unfold Conn.step at hstep
    dsimp only at hstep
    split at hstep
    · cases hstep
      cases ok with
      | true => trivial
      | false => trivial
    · rename_i domain cachedUp hp
      rw [hp] at hpicked
      split_ifs at hstep
      · cases hstep
        exact hpicked
      · cases hstep
        trivial
    · cases hstep
  | getCached now =>
    unfold Conn.step at hstep
    dsimp only at hstep
    split at hstep
    · cases hstep
    · rename_i target domain _ hp
      cases hstep
      cases hget : (app.getCachedUpstream sh.upstreamCache now conn.clientAddr.ip conn.origDst.ip
          domain).1 with
      | none => trivial
      | some up =>
        unfold AppState.getCachedUpstream at hget
        split_ifs at hget
        obtain ⟨inserted, hhas, -⟩ := hcache.get_fst hget
        exact hhas
    · cases hstep
  | connectGroup result =>
    unfold Conn.step at hstep
    dsimp only at hstep
    split at hstep
    · rename_i domain group exclude hp
      cases hstep
      cases result with
      | none => trivial
      | some up => exact hrec up domain group exclude rfl hp
    · cases hstep
  | cache retain now =>
    unfold Conn.step at hstep
    dsimp only at hstep
    split at hstep
    · cases hstep
      trivial
    · cases hstep

/-- **The cache.** A connection writes an upstream that has been selected for its key. -/
theorem Conn.Picked.all_upstreamCache (hconn : conn.Picked sels)
    (hcache : sh.upstreamCache.All fun key up _ => sels.Has key up)
    (hstep : conn.step app sh event = some (sh', conn')) :
    sh'.upstreamCache.All fun key up _ => sels.Has key up := by
  by_cases hwrite : ∃ retain now, event = .cache retain now
  · obtain ⟨retain, now, rfl⟩ := hwrite
    obtain ⟨domain, up, hp, hwritten⟩ := Conn.upstreamCache_of_cache hstep
    unfold Conn.Picked at hconn
    rw [hp] at hconn
    rw [hwritten]
    unfold AppState.cacheUpstream
    split_ifs
    · exact hcache
    · exact hcache.insertPruned hconn
  · refine Conn.all_upstreamCache_of_step hcache (fun retain now he => ?_) hstep
    exact hwrite ⟨retain, now, he⟩

end Picked

namespace History

variable {hist hist' : History} {a : Action × ℕ}

/-- The upstreams in the cache, and those that connections hold, have been selected for their
keys. -/
structure AllPicked (hist : History) : Prop where
  cache : hist.st.shared.upstreamCache.All fun key up _ => hist.selections.Has key up
  conns : ∀ id conn, hist.st.conns.lookup id = some conn → conn.Picked hist.selections

theorem AllPicked.new (mode : UInt8) : (History.new mode).AllPicked where
  cache := TtlCache.All.empty _
  conns _ _ h := by cases h

theorem AllPicked.step (h : hist.AllPicked) (hstep : hist.step app a = some hist') :
    hist'.AllPicked := by
  have hsub := selections_subset_of_step hstep
  have hcache : hist.st.shared.upstreamCache.All fun key up _ => hist'.selections.Has key up :=
    h.cache.mono fun _ _ _ hhas => hhas.mono hsub
  have hconns (id : ℕ) (conn : Conn) (hconn : hist.st.conns.lookup id = some conn) :
      conn.Picked hist'.selections := (h.conns id conn hconn).mono hsub
  obtain ⟨st, hst, rfl⟩ := Option.map_eq_some_iff.mp hstep
  obtain ⟨action, time⟩ := a
  cases action with
  | accept id clientAddr origDst sniffResult =>
    unfold Tcp.step at hst
    dsimp only at hst
    split_ifs at hst
    cases hst
    refine ⟨hcache, fun id' conn hconn => ?_⟩
    rw [HashMap.lookup_insert_eq_ite] at hconn
    split_ifs at hconn
    · cases hconn
      trivial
    · exact hconns id' conn hconn
  | advance id event =>
    unfold Tcp.step at hst
    dsimp only at hst
    split at hst
    · cases hst
    · rename_i conn hconn
      obtain ⟨⟨sh, conn'⟩, hr, rfl⟩ := Option.map_eq_some_iff.mp hst
      have hpicked := hconns id conn hconn
      -- a return of `pick_and_connect` is put into the list in the same step
      have hrec : conn.Records
          ((hist.st.selected time (.advance id event)).toList ++ hist.selections) event := by
        rintro up domain group exclude rfl hpoint
        refine ⟨time, List.mem_append_left _ ?_⟩
        rw [St.selected, hconn]
        dsimp only
        rw [hpoint]
        exact List.mem_singleton_self _
      refine ⟨hpicked.all_upstreamCache hcache hr, fun id' conn'' hlookup => ?_⟩
      rw [HashMap.lookup_insert_eq_ite] at hlookup
      split_ifs at hlookup
      · cases hlookup
        exact hpicked.step hcache hrec hr
      · exact hconns id' conn'' hlookup

/-- The last of the selections is one of them, and none is later. -/
theorem lastSelected_eq_some_iff {key : UpstreamKey} {up : Upstream} {selected : ℕ} :
    hist.lastSelected key up = some selected ↔
      (key, up, selected) ∈ hist.selections ∧
        ∀ s, (key, up, s) ∈ hist.selections → s ≤ selected := by
  rw [lastSelected, List.max?_eq_some_iff]
  simp only [List.mem_map, List.mem_filter, decide_eq_true_eq, forall_exists_index, and_imp]
  constructor
  · rintro ⟨⟨sel, ⟨hsel, hkey, hup⟩, hs⟩, hmax⟩
    obtain ⟨key', up', s'⟩ := sel
    obtain rfl : key' = key := hkey
    obtain rfl : up' = up := hup
    obtain rfl : s' = selected := hs
    exact ⟨hsel, fun s hs => hmax s _ hs rfl rfl rfl⟩
  · rintro ⟨hsel, hmax⟩
    refine ⟨⟨_, ⟨hsel, rfl, rfl⟩, rfl⟩, ?_⟩
    rintro s ⟨key', up', s'⟩ hs rfl rfl rfl
    exact hmax _ hs

theorem exists_lastSelected {key : UpstreamKey} {up : Upstream}
    (h : hist.selections.Has key up) : ∃ selected, hist.lastSelected key up = some selected := by
  cases hlast : hist.lastSelected key up with
  | some selected => exact ⟨selected, rfl⟩
  | none =>
    obtain ⟨s, hs⟩ := h
    rw [lastSelected, List.max?_eq_none_iff, List.map_eq_nil_iff, List.filter_eq_nil_iff] at hlast
    exact absurd (hlast _ hs) (by simp)

/-- A look-up is served recent selections exactly if it does not overstay. -/
theorem AllPicked.recentAt_iff (h : hist.AllPicked) {now : ℕ} {clientIp targetIp : IpAddr}
    {domain : Option Str} : hist.RecentAt app now clientIp targetIp domain ↔
      ¬hist.Overstays app (clientIp, targetIp, normalizeDomain domain) now := by
  constructor
  · rintro hrecent ⟨up, written, selected, hentry, hlast, hold, hyoung⟩
    obtain ⟨-, hmax⟩ := lastSelected_eq_some_iff.mp hlast
    have httl : app.routeCacheTtl ≠ 0 := by omega
    obtain ⟨s, hs, hlt⟩ := hrecent up (by
      rw [AppState.getCachedUpstream, if_neg httl, TtlCache.get, hentry]
      dsimp only
      rw [if_pos hyoung])
    have hle := hmax s hs
    omega
  · intro hnot up hget
    unfold AppState.getCachedUpstream at hget
    split_ifs at hget
    -- what is served has an entry that counts as young, and the entry has been selected
    obtain ⟨written, hentry, hyoung⟩ :=
      TtlCache.All.get_fst (P := fun key up written =>
        hist.st.shared.upstreamCache.lookup key = some (up, written)) (fun _ _ _ hk => hk) hget
    obtain ⟨selected, hlast⟩ := exists_lastSelected (h.cache _ _ _ hentry)
    refine ⟨selected, (lastSelected_eq_some_iff.mp hlast).1, ?_⟩
    by_contra hold
    exact hnot ⟨up, written, selected, hentry, hlast, not_lt.mp hold, hyoung⟩

/-! ### Prompt writes -/

/-- Every entry was written at most `d` after one of its selections. -/
def EntriesPrompt (d : ℕ) (hist : History) : Prop :=
  hist.st.shared.upstreamCache.All fun key up written =>
    ∃ s, (key, up, s) ∈ hist.selections ∧ written ≤ s + d

/-- **One step.** A prompt write keeps every entry close to a selection. -/
theorem EntriesPrompt.step {d : ℕ} (hinv : hist.EntriesPrompt d) (hprompt : hist.Prompt app d a)
    (h : hist.step app a = some hist') : hist'.EntriesPrompt d := by
  have hmono : hist.st.shared.upstreamCache.All fun key up written =>
      ∃ s, (key, up, s) ∈ hist'.selections ∧ written ≤ s + d := by
    refine hinv.mono ?_
    rintro key up written ⟨s, hs, hle⟩
    exact ⟨s, selections_subset_of_step h hs, hle⟩
  by_cases hwrite : ∃ id retain now, a.1 = .advance id (.cache retain now)
  · obtain ⟨id, retain, now, ha⟩ := hwrite
    obtain ⟨action, time⟩ := a
    obtain rfl : action = .advance id (.cache retain now) := ha
    obtain ⟨-, conn, domain, up, hwritten, hcache⟩ := of_step_cache h
    unfold EntriesPrompt
    rw [hcache]
    unfold AppState.cacheUpstream
    split_ifs with httl
    · exact hmono
    · obtain ⟨⟨key, up', s⟩, hs, hkey, hup, hle⟩ := hprompt httl _ hwritten
      obtain rfl : key = conn.upstreamKey domain := hkey
      obtain rfl : up' = up := hup
      exact hmono.insertPruned ⟨s, selections_subset_of_step h hs, hle⟩
  · refine all_upstreamCache_of_step hmono (fun id retain now ha => ?_) h
    exact hwrite ⟨id, retain, now, ha⟩

end History

/-- **Prompt writes.** Where every write comes at most `d` after a selection of what it writes, so
that none is of a cache hit older than that, a look-up overstays only in the last `d` of the time to
live of its entry; with writes at the readings of the selections it never does. -/
theorem overstays_late {hist : History} {d : ℕ}
    (h : Steps (History.step app) (History.Prompt app d) (.new mode) hist) {key : UpstreamKey}
    {now : ℕ} (hover : hist.Overstays app key now) :
    ∃ up written, hist.st.shared.upstreamCache.lookup key = some (up, written) ∧
      now < written + app.routeCacheTtl ∧ written + app.routeCacheTtl ≤ now + d := by
  have hinv : hist.EntriesPrompt d := by
    have hnew : (History.new mode).EntriesPrompt d := TtlCache.All.empty _
    exact h.invariant hnew fun _ _ _ hinv hprompt hstep => hinv.step hprompt hstep
  obtain ⟨up, written, selected, hentry, hlast, hold, hyoung⟩ := hover
  obtain ⟨s, hs, hle⟩ := hinv key up written hentry
  have hmax := (History.lastSelected_eq_some_iff.mp hlast).2 s hs
  exact ⟨up, written, hentry, by omega, by omega⟩

/-- The upstream that is selected in the examples. -/
def exampleUpstream : Upstream where
  id := [0x61]
  addr := .v4 ⟨127, 0, 0, 1⟩ 1080
  groups := [defaultGroup]
  gain := .finite 1

/-- The steps of a connection up to its lookup in the cache of upstreams at the reading `now`. -/
def lookupAt (id now : ℕ) : List (Action × ℕ) :=
  [(.accept id (.v4 ⟨10, 0, 1, 7⟩ 1000) (.v4 ⟨8, 8, 8, 8⟩ 443) none, now)] ++
    List.replicate 4 (.advance id (.run ⟨now, fun _ => now, now⟩), now) ++
    [(.advance id (.getCached now), now)]

/-- A connection that has its upstream selected at the reading 0 and writes it to the cache at 1. -/
def selectAndCache : List (Action × ℕ) :=
  lookupAt 0 0 ++ [(.advance 0 (.run ⟨0, fun _ => 0, 0⟩), 0),
    (.advance 0 (.connectGroup (some exampleUpstream)), 0), (.advance 0 (.cache (fun _ => 1) 1), 1)]

/-- A second connection finds the entry at the reading `now` and writes it back. -/
def selectAndReuse (now : ℕ) : List (Action × ℕ) :=
  selectAndCache ++ lookupAt 1 now ++
    [(.advance 1 (.connect true), now), (.advance 1 (.cache (fun _ => now) now), now)]

/-- The key of the connections in the examples. -/
def exampleKey : UpstreamKey := (.v4 ⟨10, 0, 1, 7⟩, .v4 ⟨8, 8, 8, 8⟩, none)

end XtpRs.Tcp
