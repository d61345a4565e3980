import Mathlib.Data.List.Basic

/-!
# A lock of readers and writers

A state behind a lock that many readers hold at a time and a writer alone. A reader reads as often as its kind
says, a writer makes its writes one by one, and what it leaves is a version.

* `Session`, `State`, `Act`, `step`: any interleaving of the steps of the readers and of the writers;
* `Kept`: the invariant; `kept_start`, **`kept_step`**, `Kept.reader_keeps`;
* **`Kept.one_version`**: all that a reader has read is one version, the last when it left;
* `Grown`, `step_grown`; **`Grown.later_version`**: who comes after somebody left reads no earlier version.
-/

namespace SharedLock

variable {κ σ : Type*}

/-- A reader waits for the lock, reads, or has left it. -/
inductive Phase where
  | waiting
  | reading
  | left
  deriving DecidableEq

/-- A reader: of a kind, with the states it has read, and how many versions there were when it came and when it
left. -/
structure Session (κ σ : Type*) where
  kind : κ
  phase : Phase
  seen : List σ
  came : ℕ
  gone : ℕ

/-- The state now, the readers in the order they came in, the writes still to be made by the writer that holds the
lock, and the versions so far. -/
structure State (κ σ : Type*) where
  shared : σ
  sessions : List (Session κ σ)
  writer : Option (List (σ → σ))
  versions : List σ

/-- Nobody came yet. -/
def State.start (v : σ) : State κ σ := ⟨v, [], none, [v]⟩

/-- Reader `i` comes, takes the lock, reads once, and leaves the lock; a writer takes the lock, makes a write, and
leaves the lock. -/
inductive Act (κ σ : Type*) where
  | come (kind : κ)
  | enter (i : ℕ)
  | read (i : ℕ)
  | leave (i : ℕ)
  | lock (writes : List (σ → σ))
  | write
  | unlock

/-- A step of a reader. -/
def Act.OfReader : Act κ σ → Prop
  | .come _ | .enter _ | .read _ | .leave _ => True
  | .lock _ | .write | .unlock => False

/-- `reads` is how often a kind of reader reads, and `touch` what each of its readings does to the state itself. -/
structure Discipline (κ σ : Type*) where
  reads : κ → ℕ
  touch : κ → ℕ → σ → σ

/-- Reading leaves the state as it is. -/
def Discipline.Settled (D : Discipline κ σ) (v : σ) : Prop := ∀ kind n, D.touch kind n v = v

namespace State

variable (D : Discipline κ σ)

/-- Reader `i` is now this. -/
def put (s : State κ σ) (i : ℕ) (r : Session κ σ) : State κ σ := { s with sessions := s.sessions.set i r }

/-- No reader holds the lock. -/
def free (s : State κ σ) : Bool := s.sessions.all fun r => r.phase ≠ .reading

/-- What an act does; none where it must wait. -/
def step (s : State κ σ) : Act κ σ → Option (State κ σ)
  | .come kind => some { s with sessions := s.sessions ++ [⟨kind, .waiting, [], s.versions.length, 0⟩] }
  | .enter i => s.sessions[i]?.bind fun r =>
      if r.phase = .waiting ∧ s.writer.isNone then some (s.put i { r with phase := .reading }) else none
  | .read i => s.sessions[i]?.bind fun r =>
      if r.phase = .reading ∧ r.seen.length < D.reads r.kind then
        some { s.put i { r with seen := r.seen ++ [s.shared] } with shared := D.touch r.kind r.seen.length s.shared }
      else none
  | .leave i => s.sessions[i]?.bind fun r =>
      if r.phase = .reading ∧ r.seen.length = D.reads r.kind then
        some (s.put i { r with phase := .left, gone := s.versions.length })
      else none
  | .lock writes => if s.free ∧ s.writer.isNone then some { s with writer := some writes } else none
  | .write =>
    match s.writer with
    | some (w :: writes) => some { s with shared := w s.shared, writer := some writes }
    | _ => none
  | .unlock =>
    match s.writer with
    | some [] => some { s with writer := none, versions := s.versions ++ [s.shared] }
    | _ => none

end State

/-! ## The invariant -/

/-- A reader has come when there were versions; while it reads, all it has read is the state now; and when it has
left, all that it has read is the version that was the last then. -/
structure Session.Fair (D : Discipline κ σ) (s : State κ σ) (r : Session κ σ) : Prop where
  came_pos : 1 ≤ r.came
  came_le : r.came ≤ s.versions.length
  waiting : r.phase = .waiting → r.seen = []
  reading : r.phase = .reading → s.writer = none ∧ ∀ v ∈ r.seen, v = s.shared
  left : r.phase = .left → r.came ≤ r.gone ∧ r.gone ≤ s.versions.length ∧ r.seen.length = D.reads r.kind ∧
    ∃ v, s.versions[r.gone - 1]? = some v ∧ ∀ w ∈ r.seen, w = v

theorem Session.Fair.congr {D : Discipline κ σ} {s s' : State κ σ} {r : Session κ σ} (h : r.Fair D s)
    (hshared : s'.shared = s.shared) (hwriter : s'.writer = s.writer) (hversions : s'.versions = s.versions) :
    r.Fair D s' where
  came_pos := h.came_pos
  came_le := hversions ▸ h.came_le
  waiting := h.waiting
  reading hreading := by
    rw [hshared, hwriter]
    exact h.reading hreading
  left hleft := by
    rw [hversions]
    exact h.left hleft

/-- Where no writer holds the lock the state is the last version, and reading leaves it as it is; a writer will leave
one of which that is true. -/
structure Kept (D : Discipline κ σ) (s : State κ σ) : Prop where
  last : s.writer = none → s.versions.getLast? = some s.shared
  settled : s.writer = none → D.Settled s.shared
  settles : ∀ writes, s.writer = some writes → D.Settled (writes.foldl (fun v w => w v) s.shared)
  versions_ne : s.versions ≠ []
  sessions : ∀ r ∈ s.sessions, r.Fair D s

/-- A writer leaves a state that reading leaves as it is. -/
def Settles (D : Discipline κ σ) (writes : List (σ → σ)) : Prop :=
  ∀ v, D.Settled (writes.foldl (fun v w => w v) v)

section Steps

variable {D : Discipline κ σ} {s s' : State κ σ}

theorem kept_start {v : σ} (h : D.Settled v) : Kept D (State.start v) where
  last _ := rfl
  settled _ := h
  settles _ hw := by cases hw
  versions_ne := List.cons_ne_nil v []
  sessions _ hr := absurd hr List.not_mem_nil

theorem Kept.put (h : Kept D s) {i : ℕ} {r : Session κ σ} (hr : r.Fair D s) : Kept D (s.put i r) where
  last := h.last
  settled := h.settled
  settles := h.settles
  versions_ne := h.versions_ne
  sessions r' hr' := by
    rcases List.mem_or_eq_of_mem_set hr' with hold | rfl
    · exact (h.sessions r' hold).congr rfl rfl rfl
    · exact hr.congr rfl rfl rfl

theorem Kept.come (h : Kept D s) (kind : κ) :
    Kept D { s with sessions := s.sessions ++ [⟨kind, .waiting, [], s.versions.length, 0⟩] } where
  last := h.last
  settled := h.settled
  settles := h.settles
  versions_ne := h.versions_ne
  sessions r hr := by
    rcases List.mem_append.mp hr with hold | hnew
    · exact (h.sessions r hold).congr rfl rfl rfl
    · rw [List.mem_singleton.mp hnew]
      exact { came_pos := List.length_pos_iff.mpr h.versions_ne, came_le := Nat.le_refl _, waiting := fun _ => rfl
              reading := nofun, left := nofun }

theorem Kept.write (h : Kept D s) (hfree : ∀ r ∈ s.sessions, r.phase ≠ .reading) {v : σ} {writes : List (σ → σ)}
    (hw : D.Settled (writes.foldl (fun v w => w v) v)) :
    Kept D { s with shared := v, writer := some writes } where
  last hnone := by cases hnone
  settled hnone := by cases hnone
  settles writes' hsome := Option.some.inj hsome ▸ hw
  versions_ne := h.versions_ne
  sessions r hr :=
    { came_pos := (h.sessions r hr).came_pos, came_le := (h.sessions r hr).came_le
      waiting := (h.sessions r hr).waiting, reading := fun hreading => absurd hreading (hfree r hr)
      left := (h.sessions r hr).left }

theorem Kept.unlock (h : Kept D s) (hw : s.writer = some []) :
    Kept D { s with writer := none, versions := s.versions ++ [s.shared] } where
  last _ := List.getLast?_concat
  settled _ := h.settles [] hw
  settles _ hsome := by cases hsome
  versions_ne := List.append_ne_nil_of_right_ne_nil _ (List.cons_ne_nil _ [])
  sessions r hr := by
    have hfair := h.sessions r hr
    have hlen : s.versions.length ≤ (s.versions ++ [s.shared]).length := by simp
    refine { came_pos := hfair.came_pos, came_le := Nat.le_trans hfair.came_le hlen, waiting := hfair.waiting
             reading := fun hreading => ?_, left := fun hleft => ?_ }
    · have hnone := (hfair.reading hreading).1
      rw [hw] at hnone
      cases hnone
    · obtain ⟨hcame, hgone, hreads, v, hv, hseen⟩ := hfair.left hleft
      refine ⟨hcame, Nat.le_trans hgone hlen, hreads, v, ?_, hseen⟩
      rw [List.getElem?_append_left (by have := hfair.came_pos; omega)]
      exact hv

/-- **Every step keeps the invariant**, where what writers leave is settled. -/
theorem kept_step (h : Kept D s) {a : Act κ σ} (hw : ∀ writes, a = .lock writes → Settles D writes)
    (hstep : s.step D a = some s') : Kept D s' := by
  cases a with
  | come kind =>
    obtain rfl := Option.some.inj hstep
    exact h.come kind
  | enter i =>
    obtain ⟨r, hr, hr'⟩ := Option.bind_eq_some_iff.mp hstep
    split_ifs at hr' with hphase
    obtain rfl := Option.some.inj hr'
    have hfair := h.sessions r (List.mem_of_getElem? hr)
    refine h.put { came_pos := hfair.came_pos, came_le := hfair.came_le, waiting := nofun, left := nofun
                   reading := fun _ => ⟨Option.isNone_iff_eq_none.mp hphase.2, ?_⟩ }
    dsimp only
    rw [hfair.waiting hphase.1]
    exact List.forall_mem_nil _
  | read i =>
    obtain ⟨r, hr, hr'⟩ := Option.bind_eq_some_iff.mp hstep
    split_ifs at hr' with hphase
    obtain rfl := Option.some.inj hr'
    have hfair := h.sessions r (List.mem_of_getElem? hr)
    obtain ⟨hnone, hseen⟩ := hfair.reading hphase.1
    rw [h.settled hnone r.kind r.seen.length]
    refine h.put { came_pos := hfair.came_pos, came_le := hfair.came_le
                   waiting := fun hwait => absurd (hphase.1.symm.trans hwait) Phase.noConfusion
                   reading := fun _ => ⟨hnone, ?_⟩
                   left := fun hleft => absurd (hphase.1.symm.trans hleft) Phase.noConfusion }
    exact List.forall_mem_append.mpr ⟨hseen, List.forall_mem_singleton.mpr rfl⟩
  | leave i =>
    obtain ⟨r, hr, hr'⟩ := Option.bind_eq_some_iff.mp hstep
    split_ifs at hr' with hphase
    obtain rfl := Option.some.inj hr'
    have hfair := h.sessions r (List.mem_of_getElem? hr)
    obtain ⟨hnone, hseen⟩ := hfair.reading hphase.1
    refine h.put { came_pos := hfair.came_pos, came_le := hfair.came_le, waiting := nofun, reading := nofun
                   left := fun _ => ⟨hfair.came_le, Nat.le_refl _, hphase.2, s.shared, ?_, hseen⟩ }
    rw [← List.getLast?_eq_getElem?]
    exact h.last hnone
  | lock writes =>
    simp only [State.step] at hstep
    split_ifs at hstep with hfree
    obtain rfl := Option.some.inj hstep
    have hnobody : ∀ r ∈ s.sessions, r.phase ≠ .reading := fun r hr =>
      of_decide_eq_true (List.all_eq_true.mp hfree.1 r hr)
    exact h.write hnobody (hw writes rfl s.shared)
  | write =>
    simp only [State.step] at hstep
    split at hstep
    · next w writes hwriter =>
      obtain rfl := Option.some.inj hstep
      refine h.write (fun r hr hreading => ?_) (h.settles _ hwriter)
      have hnone := ((h.sessions r hr).reading hreading).1
      rw [hwriter] at hnone
      cases hnone
    · cases hstep
  | unlock =>
    simp only [State.step] at hstep
    split at hstep
    · next hwriter =>
      obtain rfl := Option.some.inj hstep
      exact h.unlock hwriter
    · cases hstep

/-- **A reader changes nothing** but which readers there are and what they have read. -/
theorem Kept.reader_keeps (h : Kept D s) {a : Act κ σ} (ha : a.OfReader) (hstep : s.step D a = some s') :
    s'.shared = s.shared ∧ s'.writer = s.writer ∧ s'.versions = s.versions := by
  cases a with
  | come kind =>
    obtain rfl := Option.some.inj hstep
    exact ⟨rfl, rfl, rfl⟩
  | enter i | leave i =>
    obtain ⟨r, -, hr'⟩ := Option.bind_eq_some_iff.mp hstep
    split_ifs at hr'
    obtain rfl := Option.some.inj hr'
    exact ⟨rfl, rfl, rfl⟩
  | read i =>
    obtain ⟨r, hr, hr'⟩ := Option.bind_eq_some_iff.mp hstep
    split_ifs at hr' with hphase
    obtain rfl := Option.some.inj hr'
    have hnone := ((h.sessions r (List.mem_of_getElem? hr)).reading hphase.1).1
    exact ⟨h.settled hnone r.kind r.seen.length, rfl, rfl⟩
  | lock | write | unlock => exact ha.elim

end Steps

/-! ## Readers over runs -/

variable {D : Discipline κ σ} {s s' : State κ σ}

/-- **All that a reader has read is one version**, the last one when it left, and one that was there or came after it
had come. -/
theorem Kept.one_version (h : Kept D s) {r : Session κ σ} (hr : r ∈ s.sessions) (hleft : r.phase = .left) :
    ∃ n v, s.versions[n]? = some v ∧ r.came ≤ n + 1 ∧ n + 1 = r.gone ∧ r.seen = List.replicate (D.reads r.kind) v := by
  have hfair := h.sessions r hr
  obtain ⟨hcame, -, hreads, v, hv, hseen⟩ := hfair.left hleft
  have hpos := hfair.came_pos
  refine ⟨r.gone - 1, v, hv, by omega, by omega, ?_⟩
  rw [← hreads]
  exact List.eq_replicate_of_mem hseen

/-- Versions are only added and readers only come; a reader stays of its kind, and as it is once it has left. -/
structure Grown (s s' : State κ σ) : Prop where
  versions : s.versions <+: s'.versions
  came : ∀ i, s.sessions.length ≤ i → ∀ r : Session κ σ, s'.sessions[i]? = some r → s.versions.length ≤ r.came
  stays : ∀ (i : ℕ) (r : Session κ σ), s.sessions[i]? = some r → ∃ r' : Session κ σ, s'.sessions[i]? = some r' ∧
    r'.kind = r.kind ∧ r'.came = r.came ∧ (r.phase = .left → r' = r)

theorem Grown.refl (s : State κ σ) : Grown s s where
  versions := List.prefix_refl _
  came i hi r hr := by
    rw [List.getElem?_eq_none hi] at hr
    cases hr
  stays _ r hr := ⟨r, hr, rfl, rfl, fun _ => rfl⟩

theorem Grown.trans {t : State κ σ} (h : Grown s t) (h' : Grown t s') : Grown s s' where
  versions := h.versions.trans h'.versions
  came i hi r hr := by
    by_cases hnew : t.sessions.length ≤ i
    · exact Nat.le_trans h.versions.length_le (h'.came i hnew r hr)
    · have hr₀ := List.getElem?_eq_getElem (Nat.not_le.mp hnew)
      obtain ⟨r', hr', -, hcame, -⟩ := h'.stays i _ hr₀
      rw [hr] at hr'
      rw [Option.some.inj hr', hcame]
      exact h.came i hi _ hr₀
  stays i r hr := by
    obtain ⟨r₁, hr₁, hkind₁, hcame₁, hleft₁⟩ := h.stays i r hr
    obtain ⟨r₂, hr₂, hkind₂, hcame₂, hleft₂⟩ := h'.stays i r₁ hr₁
    refine ⟨r₂, hr₂, hkind₂.trans hkind₁, hcame₂.trans hcame₁, fun hleft => ?_⟩
    obtain rfl := hleft₁ hleft
    exact hleft₂ hleft

theorem grown_put {i : ℕ} {r : Session κ σ} (hr : s.sessions[i]? = some r) (hphase : r.phase ≠ .left)
    (r' : Session κ σ) (hkind : r'.kind = r.kind) (hcame : r'.came = r.came) (v : σ) :
    Grown s { s.put i r' with shared := v } where
  versions := List.prefix_refl _
  came j hj r'' hr'' := by
    have hlt := (List.getElem?_eq_some_iff.mp hr'').1
    rw [State.put, List.length_set] at hlt
    omega
  stays j r'' hr'' := by
    by_cases hij : i = j
    · subst hij
      obtain rfl := Option.some.inj (hr.symm.trans hr'')
      refine ⟨r', ?_, hkind, hcame, fun hleft => absurd hleft hphase⟩
      exact List.getElem?_set_self (List.getElem?_eq_some_iff.mp hr).1
    · exact ⟨r'', (List.getElem?_set_ne hij).trans hr'', rfl, rfl, fun _ => rfl⟩

theorem step_grown {a : Act κ σ} (hstep : s.step D a = some s') : Grown s s' := by
  cases a with
  | come kind =>
    obtain rfl := Option.some.inj hstep
    refine { versions := List.prefix_refl _, came := fun i hi r hr => ?_
             stays := fun i r hr => ⟨r, ?_, rfl, rfl, fun _ => rfl⟩ }
    · dsimp only at hr
      rw [List.getElem?_append_right hi] at hr
      obtain rfl := List.mem_singleton.mp (List.mem_of_getElem? hr)
      exact Nat.le_refl _
    · dsimp only
      rw [List.getElem?_append_left (List.getElem?_eq_some_iff.mp hr).1]
      exact hr
  | enter i =>
    obtain ⟨r, hr, hr'⟩ := Option.bind_eq_some_iff.mp hstep
    split_ifs at hr' with hphase
    obtain rfl := Option.some.inj hr'
    exact grown_put hr (fun hleft => Phase.noConfusion (hphase.1.symm.trans hleft)) { r with phase := .reading } rfl
      rfl s.shared
  | read i =>
    obtain ⟨r, hr, hr'⟩ := Option.bind_eq_some_iff.mp hstep
    split_ifs at hr' with hphase
    obtain rfl := Option.some.inj hr'
    exact grown_put hr (fun hleft => Phase.noConfusion (hphase.1.symm.trans hleft))
      { r with seen := r.seen ++ [s.shared] } rfl rfl (D.touch r.kind r.seen.length s.shared)
  | leave i =>
    obtain ⟨r, hr, hr'⟩ := Option.bind_eq_some_iff.mp hstep
    split_ifs at hr' with hphase
    obtain rfl := Option.some.inj hr'
    exact grown_put hr (fun hleft => Phase.noConfusion (hphase.1.symm.trans hleft))
      { r with phase := .left, gone := s.versions.length } rfl rfl s.shared
  | lock writes =>
    simp only [State.step] at hstep
    split_ifs at hstep
    obtain rfl := Option.some.inj hstep
    exact ⟨List.prefix_refl _, (Grown.refl s).came, (Grown.refl s).stays⟩
  | write =>
    simp only [State.step] at hstep
    split at hstep
    · obtain rfl := Option.some.inj hstep
      exact ⟨List.prefix_refl _, (Grown.refl s).came, (Grown.refl s).stays⟩
    · cases hstep
  | unlock =>
    simp only [State.step] at hstep
    split at hstep
    · obtain rfl := Option.some.inj hstep
      exact ⟨List.prefix_append _ _, (Grown.refl s).came, (Grown.refl s).stays⟩
    · cases hstep

/-- **Who comes after somebody left reads no earlier version.** -/
theorem Grown.later_version (hgrown : Grown s s') (h : Kept D s) (h' : Kept D s') {i j : ℕ} {r r' : Session κ σ}
    (hr : s.sessions[i]? = some r) (hleft : r.phase = .left) (hj : s.sessions.length ≤ j)
    (hr' : s'.sessions[j]? = some r') (hleft' : r'.phase = .left) : r.gone ≤ r'.gone := by
  have hgone := ((h.sessions r (List.mem_of_getElem? hr)).left hleft).2.1
  have hcame := ((h'.sessions r' (List.mem_of_getElem? hr')).left hleft').1
  exact Nat.le_trans hgone (Nat.le_trans (hgrown.came j hj r' hr') hcame)

end SharedLock
