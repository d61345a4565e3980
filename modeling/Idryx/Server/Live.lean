import Idryx.Lib.SharedLock
import Idryx.Server.Api

/-!
# The server while it runs

`Replace` and the handlers of `internal/server/server.go`, each field of the server read and written by itself, and
the refresh loop of `runServe`, `cmd/idryx/main.go`.

* `Request`, `respond`: what a handler makes of the fields as it reads them one after another; `answer`: what it is to
  answer from one state;
* `Serve`, `Act`, `step`: the requests, the ticker and the steps of `Replace` in any order; `version`, `built`;
* `Live`: the invariant; **`live_step`**, `live_run`;
* **`serve_live`**: over all runs, each request is answered from one graph and its own alerts, and no later one from
  an earlier graph.
-/

namespace Idryx.Api

open Remediation Server

/-! ## Requests -/

/-- The endpoints that read the graph. -/
inductive Endpoint where
  | alerts
  | identities
  | remediations
  deriving DecidableEq

/-- A request, with the reading of the clock it is answered at. -/
structure Request where
  endpoint : Endpoint
  now : Time

/-- What each endpoint sends. -/
inductive Response where
  | alerts (out : List ApiAlert)
  | identities (out : List ApiIdentity)
  | remediations (out : List ApiRecommendation)

/-- How often the handler reads the fields of the server. -/
def Endpoint.reads : Endpoint → ℕ
  | .alerts => 1
  | .identities => 3
  | .remediations => 2

/-- What the graph is after `Identities` has sorted it in place. -/
def Served.sorted (s : Served) : Served := { s with graph := s.graph.sortEvents }

/-- The handler reads the server: `Identities` is the second reading of `identitiesJSON`, and of `remediationsJSON`
where nothing was persisted. -/
def Endpoint.touch (s : Served) : Endpoint → ℕ → Served
  | .identities, 1 => s.sorted
  | .remediations, 1 => if s.remParam.isSome then s else s.sorted
  | _, _ => s

/-- A request reads the server in steps, some of which write to it. -/
def discipline : SharedLock.Discipline Request Served where
  reads r := r.endpoint.reads
  touch r n s := r.endpoint.touch s n

section

variable (U : Unicode) (days : Ages)

/-- What a handler makes of the server as it was at each of its readings. -/
def respond (r : Request) (seen : List Served) : Option Response :=
  match r.endpoint, seen with
  | .alerts, [s] => some (.alerts (alertsJSON s))
  -- the alerts, the graph, then what was persisted
  | .identities, [a, g, p] =>
    some (.identities (identitiesJSON U days r.now ⟨⟨g.graph, p.remParam⟩, a.alerts⟩))
  -- whether a set was persisted, then the set or the graph
  | .remediations, [p, s] =>
    match p.remParam with
    | some _ => some (.remediations ((s.remParam.getD []).map apiStored))
    | none => some (.remediations ((⟨s.graph, none⟩ : Server).remediationsJSON U days r.now))
  | _, _ => none

/-- The answer from one state of the server. -/
def answer (r : Request) (s : Served) : Response :=
  match r.endpoint with
  | .alerts => .alerts (alertsJSON s)
  | .identities => .identities (identitiesJSON U days r.now s)
  | .remediations => .remediations (s.toServer.remediationsJSON U days r.now)

variable {U days}

theorem respond_replicate (r : Request) (s : Served) :
    respond U days r (List.replicate r.endpoint.reads s) = some (answer U days r s) := by
  unfold respond answer
  cases r.endpoint with
  | alerts => rfl
  | identities => rfl
  | remediations =>
    obtain ⟨⟨g, remParam⟩, alerts⟩ := s
    cases remParam <;> rfl

end

/-! ## The refresh loop -/

/-- `Replace`: one field after the other. -/
def replace (g : Store) (alerts : List Alert) : List (Served → Served) :=
  [fun s => { s with graph := g }, fun s => { s with alerts := alerts }]

/-- The loop waits for the ticker, has built a graph and its alerts, or is in `Replace`. -/
inductive Loop where
  | idle
  | built (g : Store) (alerts : List Alert)
  | replacing (g : Store) (alerts : List Alert)

/-- The server and the loop. -/
structure Serve where
  server : SharedLock.State Request Served
  loop : Loop

/-- A request comes, takes the lock, reads, or is answered; the ticker ticks, and the graph is built or is not;
`Replace` takes the lock, writes a field, or leaves the lock. -/
inductive Act where
  | come (r : Request)
  | enter (i : ℕ)
  | read (i : ℕ)
  | leave (i : ℕ)
  | tick (W : World) (g : Option Store)
  | lock
  | write
  | unlock

namespace Serve

/-- The server before the first request; the detectors have sorted the graph. -/
def boot (W : World) (g : Store) : Option Serve :=
  (runDetectors W g.identities).map fun alerts =>
    ⟨SharedLock.State.start ⟨⟨g.sortEvents, none⟩, alerts⟩, .idle⟩

/-- A step of the server alone. -/
def act (s : Serve) (a : SharedLock.Act Request Served) (loop : Loop) : Option Serve :=
  (s.server.step discipline a).map fun server => ⟨server, loop⟩

/-- What an act does to the server and to the loop; none where it cannot be done. -/
def step (s : Serve) : Act → Option Serve
  | .come r => s.act (.come r) s.loop
  | .enter i => s.act (.enter i) s.loop
  | .read i => s.act (.read i) s.loop
  | .leave i => s.act (.leave i) s.loop
  | .tick W g =>
    match s.loop, g with
    | .idle, some g => (runDetectors W g.identities).map fun alerts => { s with loop := .built g.sortEvents alerts }
    -- the last good graph is kept
    | .idle, none => some s
    | _, _ => none
  | .lock =>
    match s.loop with
    | .built g alerts => s.act (.lock (replace g alerts)) (.replacing g alerts)
    | _ => none
  | .write => s.act .write s.loop
  | .unlock => s.act .unlock .idle

/-- A sequence of acts. -/
def run (s : Serve) (acts : List Act) : Option Serve := acts.foldlM step s

end Serve

/-! ## Versions -/

/-- A graph with its own alerts. -/
def version (W : World) (g : Store) : Served := ⟨⟨g.sortEvents, none⟩, (runDetectors W g.identities).getD []⟩

/-- What the ticks have built, in order. -/
def built (acts : List Act) : List Served :=
  acts.filterMap fun a =>
    match a with
    | .tick W (some g) => some (version W g)
    | _ => none

/-- What the loop has built and not installed yet. -/
def Loop.pending : Loop → List Served
  | .idle => []
  | .built g alerts | .replacing g alerts => [⟨⟨g, none⟩, alerts⟩]

/-! ## The invariant -/

theorem sortEvents_sortEvents (g : Store) : g.sortEvents.sortEvents = g.sortEvents := by
  have hnodes : (g.nodes.map Identity.chronological).map Identity.chronological =
      g.nodes.map Identity.chronological := by
    rw [List.map_map]
    exact List.map_congr_left fun i _ => Store.chronological_chronological i
  simp only [Store.sortEvents, Store.mk.injEq, true_and, and_true]
  exact hnodes

theorem settled_of_sorted {s : Served} (h : s.graph.sortEvents = s.graph) : discipline.Settled s := by
  have hsorted : s.sorted = s := by rw [Served.sorted, h]
  intro r n
  change r.endpoint.touch s n = s
  unfold Endpoint.touch
  split
  · exact hsorted
  · rw [hsorted, ite_self]
  · rfl

theorem settles_replace {g : Store} (h : g.sortEvents = g) (alerts : List Alert) :
    SharedLock.Settles discipline (replace g alerts) :=
  fun s => settled_of_sorted (s := ⟨⟨g, s.remParam⟩, alerts⟩) h

/-- The lock is kept; what was built is what was installed and what the loop holds; and only within `Replace` is there
a writer, who will leave what the loop holds. -/
structure Live (v : Served) (acts : List Act) (s : Serve) : Prop where
  kept : SharedLock.Kept discipline s.server
  installed : v :: built acts = s.server.versions ++ s.loop.pending
  writer : match s.loop with
    | .idle => s.server.writer = none ∧ s.server.shared.remParam = none
    | .built g _ => s.server.writer = none ∧ s.server.shared.remParam = none ∧ g.sortEvents = g
    | .replacing g alerts => ∃ writes, s.server.writer = some writes ∧
        writes.foldl (fun s w => w s) s.server.shared = ⟨⟨g, none⟩, alerts⟩

section

variable {v : Served} {acts : List Act} {s s' : Serve}

theorem built_concat (acts : List Act) (a : Act) : built (acts ++ [a]) = built acts ++ built [a] :=
  List.filterMap_append

theorem installed_concat {a : Act} (ha : built [a] = []) (h : v :: built acts = s.server.versions ++ s.loop.pending) :
    v :: built (acts ++ [a]) = s.server.versions ++ s.loop.pending := by
  rw [built_concat, ha, List.append_nil]
  exact h

theorem Live.request (h : Live v acts s) {a : Act} {r : SharedLock.Act Request Served} (hr : r.OfReader)
    (ha : built [a] = []) (hstep : s.act r s.loop = some s') : Live v (acts ++ [a]) s' := by
  obtain ⟨server, hserver, rfl⟩ := Option.map_eq_some_iff.mp hstep
  obtain ⟨hshared, hwriter, hversions⟩ := h.kept.reader_keeps hr hserver
  refine { kept := SharedLock.kept_step h.kept (fun writes hlock => ?_) hserver, installed := ?_, writer := ?_ }
  · subst hlock
    exact hr.elim
  · rw [hversions]
    exact installed_concat ha h.installed
  · dsimp only
    rw [hshared, hwriter]
    exact h.writer

theorem Live.tick (h : Live v acts s) {W : World} {g : Option Store} (hstep : s.step (.tick W g) = some s') :
    Live v (acts ++ [.tick W g]) s' := by
  obtain ⟨server, loop⟩ := s
  cases loop with
  | built | replacing => cases hstep
  | idle =>
    obtain ⟨hwriter, hrem⟩ := h.writer
    cases g with
    | none =>
      obtain rfl := Option.some.inj hstep
      exact { kept := h.kept, installed := installed_concat rfl h.installed, writer := ⟨hwriter, hrem⟩ }
    | some g =>
      obtain ⟨alerts, hrun, rfl⟩ := Option.map_eq_some_iff.mp hstep
      refine { kept := h.kept, installed := ?_, writer := ⟨hwriter, hrem, sortEvents_sortEvents g⟩ }
      have hbuilt : built [.tick W (some g)] = [⟨⟨g.sortEvents, none⟩, alerts⟩] := by
        rw [← Option.getD_some (a := alerts) (b := []), ← hrun]
        rfl
      rw [built_concat, hbuilt, ← List.cons_append, h.installed, Loop.pending, List.append_nil]
      rfl

theorem Live.lock (h : Live v acts s) (hstep : s.step .lock = some s') : Live v (acts ++ [.lock]) s' := by
  obtain ⟨server, loop⟩ := s
  cases loop with
  | idle | replacing => cases hstep
  | built g alerts =>
    obtain ⟨-, hrem, hsorted⟩ := h.writer
    obtain ⟨server', hserver, rfl⟩ := Option.map_eq_some_iff.mp hstep
    have hkept := SharedLock.kept_step h.kept (fun writes hlock => ?_) hserver
    · simp only [SharedLock.State.step] at hserver
      split_ifs at hserver
      obtain rfl := Option.some.inj hserver
      refine { kept := hkept, installed := installed_concat rfl h.installed, writer := ⟨replace g alerts, rfl, ?_⟩ }
      change (⟨⟨g, server.shared.remParam⟩, alerts⟩ : Served) = _
      rw [hrem]
    · obtain rfl := SharedLock.Act.lock.inj hlock
      exact settles_replace hsorted alerts

theorem Live.write (h : Live v acts s) (hstep : s.step .write = some s') : Live v (acts ++ [.write]) s' := by
  obtain ⟨server', hserver, rfl⟩ := Option.map_eq_some_iff.mp hstep
  have hkept := SharedLock.kept_step h.kept (fun _ hlock => by cases hlock) hserver
  obtain ⟨server, loop⟩ := s
  simp only [SharedLock.State.step] at hserver
  split at hserver
  · next w writes hwrites =>
    obtain rfl := Option.some.inj hserver
    refine { kept := hkept, installed := installed_concat rfl h.installed, writer := ?_ }
    have hwriter := h.writer
    cases loop with
    | idle | built => exact absurd (hwrites.symm.trans hwriter.1) (Option.some_ne_none _)
    | replacing g alerts =>
      obtain ⟨writes', hwrites', hleft⟩ := hwriter
      obtain rfl := Option.some.inj (hwrites.symm.trans hwrites')
      exact ⟨writes, rfl, hleft⟩
  · cases hserver

theorem Live.unlock (h : Live v acts s) (hstep : s.step .unlock = some s') : Live v (acts ++ [.unlock]) s' := by
  obtain ⟨server', hserver, rfl⟩ := Option.map_eq_some_iff.mp hstep
  have hkept := SharedLock.kept_step h.kept (fun _ hlock => by cases hlock) hserver
  obtain ⟨server, loop⟩ := s
  simp only [SharedLock.State.step] at hserver
  split at hserver
  · next hwrites =>
    obtain rfl := Option.some.inj hserver
    have hwriter := h.writer
    cases loop with
    | idle | built => exact absurd (hwrites.symm.trans hwriter.1) (Option.some_ne_none _)
    | replacing g alerts =>
      obtain ⟨writes, hwrites', hleft⟩ := hwriter
      obtain rfl := Option.some.inj (hwrites.symm.trans hwrites')
      change server.shared = _ at hleft
      refine { kept := hkept, installed := ?_, writer := ⟨rfl, ?_⟩ }
      · refine installed_concat rfl ?_
        rw [h.installed, Loop.pending, Loop.pending, List.append_nil, hleft]
      · dsimp only
        rw [hleft]
  · cases hserver

/-- **Every step keeps the invariant.** -/
theorem live_step (h : Live v acts s) {a : Act} (hstep : s.step a = some s') : Live v (acts ++ [a]) s' := by
  cases a with
  | come r => exact h.request (r := .come r) trivial rfl hstep
  | enter i => exact h.request (r := .enter i) trivial rfl hstep
  | read i => exact h.request (r := .read i) trivial rfl hstep
  | leave i => exact h.request (r := .leave i) trivial rfl hstep
  | tick W g => exact h.tick hstep
  | lock => exact h.lock hstep
  | write => exact h.write hstep
  | unlock => exact h.unlock hstep

theorem grown_step {a : Act} (hstep : s.step a = some s') : SharedLock.Grown s.server s'.server := by
  have hact : ∀ {r : SharedLock.Act Request Served} {loop : Loop}, s.act r loop = some s' →
      SharedLock.Grown s.server s'.server := by
    intro r loop hact
    obtain ⟨server, hserver, rfl⟩ := Option.map_eq_some_iff.mp hact
    exact SharedLock.step_grown hserver
  obtain ⟨server, loop⟩ := s
  cases a with
  | come | enter | read | leave | write | unlock => exact hact hstep
  | tick W g =>
    cases loop with
    | built | replacing => cases hstep
    | idle =>
      cases g with
      | none =>
        obtain rfl := Option.some.inj hstep
        exact SharedLock.Grown.refl _
      | some g =>
        obtain ⟨alerts, -, rfl⟩ := Option.map_eq_some_iff.mp hstep
        exact SharedLock.Grown.refl _
  | lock =>
    cases loop with
    | idle | replacing => cases hstep
    | built => exact hact hstep

/-! ## Runs -/

theorem live_boot {W : World} {g : Store} {b : Serve} (h : Serve.boot W g = some b) : Live (version W g) [] b := by
  obtain ⟨alerts, hrun, rfl⟩ := Option.map_eq_some_iff.mp h
  have hversion : version W g = ⟨⟨g.sortEvents, none⟩, alerts⟩ := by rw [version, hrun, Option.getD_some]
  rw [hversion]
  exact { kept := SharedLock.kept_start (settled_of_sorted (sortEvents_sortEvents g)), installed := rfl
          writer := ⟨rfl, rfl⟩ }

/-- **So does every run.** -/
theorem live_run (h : Live v acts s) {more : List Act} (hrun : s.run more = some s') :
    Live v (acts ++ more) s' ∧ SharedLock.Grown s.server s'.server := by
  induction more generalizing acts s with
  | nil =>
    obtain rfl := Option.some.inj hrun
    exact ⟨(List.append_nil acts).symm ▸ h, SharedLock.Grown.refl _⟩
  | cons a more ih =>
    obtain ⟨s₁, hstep, hmore⟩ := Option.bind_eq_some_iff.mp (hrun : (s.step a).bind (·.run more) = some s')
    obtain ⟨hlive, hgrown⟩ := ih (live_step h hstep) hmore
    rw [List.append_assoc] at hlive
    exact ⟨hlive, (grown_step hstep).trans hgrown⟩

end

/-- **The served data live and are never torn.** In every order of requests, ticks and steps of `Replace`: what was
built from the source has been installed in that order, up to the last graph, which the loop may still hold; each
request that was answered was answered from one graph and its own alerts, the last installed when it was answered; and
no request that comes later is answered from an earlier graph. -/
theorem serve_live (U : Unicode) (days : Ages) {W : World} {g : Store} {b s t : Serve} {acts more : List Act}
    (hboot : Serve.boot W g = some b) (hrun : b.run acts = some s) (hmore : s.run more = some t) :
    version W g :: built acts = s.server.versions ++ s.loop.pending ∧
      (∀ r ∈ s.server.sessions, r.phase = .left → ∃ n v, s.server.versions[n]? = some v ∧ r.came ≤ n + 1 ∧
        n + 1 = r.gone ∧ respond U days r.kind r.seen = some (answer U days r.kind v)) ∧
      s.server.versions <+: t.server.versions ∧
      ∀ (i j : ℕ) (r r' : SharedLock.Session Request Served), s.server.sessions[i]? = some r → r.phase = .left →
        s.server.sessions.length ≤ j → t.server.sessions[j]? = some r' → r'.phase = .left → r.gone ≤ r'.gone := by
  have hs := (live_run (live_boot hboot) hrun).1
  obtain ⟨ht, hgrown⟩ := live_run hs hmore
  refine ⟨hs.installed, fun r hr hleft => ?_, hgrown.versions, fun i j r r' hr hleft hj hr' hleft' => ?_⟩
  · obtain ⟨n, v, hv, hcame, hgone, hseen⟩ := hs.kept.one_version hr hleft
    refine ⟨n, v, hv, hcame, hgone, ?_⟩
    rw [hseen]
    exact respond_replicate r.kind v
  · exact hgrown.later_version hs.kept ht.kept hr hleft hj hr' hleft'

/-- A graph with an agent nobody owns. -/
def ownerless : Store := (Store.new fun _ => false).addIdentity { Identity.zero "bot" with type := identityAgent }

/-- A request that reads while the graph is built, and one after `Replace` and a tick that failed. -/
def refreshed : List Act × List Act :=
  ([.come ⟨.identities, .seconds 7⟩, .enter 0, .tick .still (some ownerless), .read 0, .read 0, .read 0, .leave 0],
    [.lock, .write, .write, .unlock, .tick .still none, .come ⟨.alerts, .seconds 8⟩, .enter 1, .read 1, .leave 1])

theorem serve_live_refreshed : ∃ b s t, Serve.boot .still (Store.new fun _ => false) = some b ∧
    b.run refreshed.1 = some s ∧ s.run refreshed.2 = some t ∧
    t.server.sessions.map (fun r => (r.came, r.gone)) = [(1, 1), (2, 2)] ∧
    version .still (Store.new fun _ => false) :: built refreshed.1 = s.server.versions ++ s.loop.pending ∧
    s.server.versions <+: t.server.versions := by
  have hrun : (((Serve.boot .still (Store.new fun _ => false)).bind (·.run refreshed.1)).bind
      (·.run refreshed.2)).map (fun t => t.server.sessions.map fun r => (r.came, r.gone)) =
        some [(1, 1), (2, 2)] := rfl
  obtain ⟨t, ht, hcounts⟩ := Option.map_eq_some_iff.mp hrun
  obtain ⟨s, hs, hmore⟩ := Option.bind_eq_some_iff.mp ht
  obtain ⟨b, hboot, hacts⟩ := Option.bind_eq_some_iff.mp hs
  obtain ⟨hinstalled, -, hversions, -⟩ := serve_live Unicode.basic (fun _ => 0) hboot hacts hmore
  exact ⟨b, s, t, hboot, hacts, hmore, hcounts, hinstalled, hversions⟩

end Idryx.Api
