import Idryx.Pg.Events

/-!
# Logs that are loaded twice

`internal/ingest/okta.go` and `internal/ingest/egress.go`, whose times are parsed from text, and the set
of events seen in `internal/graph/store.go`. Two times are one key only if they point to one location,
and `time.Parse` makes a new one for an offset it does not keep.

* `okta`, `egress`: the two readers, by `parseLog`;
* `Event.equalAt`: equal in every field, the times as instants;
* `StoredOnce`; **`storedOnce_iff`**: when each event of a sequence is stored once;
* **`twice_storedOnce_iff`**: when each event of a log is that was parsed and added twice;
* `halfHour_stored_twice`: a log on which it is not.
-/

namespace Idryx

open Time (Parser Stamp)

namespace Ingest

/-! ## The readers -/

/-- How many entries were read, and how many were skipped. -/
structure Report where
  records : Nat
  malformed : Nat
  deriving DecidableEq

/-- The loop of a reader: entries without a usable time are skipped. -/
def parseLog {ρ : Type} (P : Parser) (timeOf : ρ → GoString) (event : ρ → Time → Event) :
    List ρ → Nat → List Event × Report × Nat
  | [], allocated => ([], ⟨0, 0⟩, allocated)
  | r :: rs, allocated =>
    let (t, allocated) := P.parse allocated (timeOf r)
    let (out, rep, allocated) := parseLog P timeOf event rs allocated
    match t with
    | none => (out, ⟨rep.records + 1, rep.malformed + 1⟩, allocated)
    | some t => (event r t :: out, ⟨rep.records + 1, rep.malformed⟩, allocated)

/-- An entry of an Okta System Log. JSON has no numeral for NaN. -/
structure OktaEvent where
  published : GoString
  eventType : GoString
  result : GoString
  alternateID : GoString
  ipAddress : GoString
  rawUserAgent : GoString
  city : GoString
  country : GoString
  lat : F64
  lon : F64
  noNaN : lat.isNaN = false ∧ lon.isNaN = false

/-- The type of event that a type of Okta's is taken for. -/
def mapType (t : GoString) : GoString :=
  if Strings.contains t "push" || Strings.contains t "factor" || Strings.contains t ".mfa." then
    eventMFAChallenge
  else if Strings.contains t "session.start" || Strings.hasPrefix t "user.authentication" then eventLogin
  else eventOther

/-- The event of an entry of Okta's log. -/
def OktaEvent.toEvent (r : OktaEvent) (t : Time) : Event :=
  { (default : Event) with
    time := t
    identityID := r.alternateID
    type := mapType r.eventType
    outcome := r.result
    ip := r.ipAddress
    city := r.city
    country := r.country
    lat := r.lat
    lon := r.lon
    device := r.rawUserAgent }

/-- `Okta`, over the entries of the document. -/
def okta (P : Parser) (raw : List OktaEvent) (allocated : Nat) : List Event × Report × Nat :=
  parseLog P OktaEvent.published OktaEvent.toEvent raw allocated

/-- A flow of an egress log. -/
structure EgressFlow where
  time : GoString
  identity : GoString
  destination : GoString

/-- The event of a flow. -/
def EgressFlow.toEvent (f : EgressFlow) (t : Time) : Event :=
  { (default : Event) with
    time := t
    identityID := f.identity
    type := eventEgress
    outcome := "SUCCESS"
    resource := f.destination }

/-- `Egress`, over the flows of the document. -/
def egress (P : Parser) (flows : List EgressFlow) (allocated : Nat) : List Event × Report × Nat :=
  parseLog P EgressFlow.time EgressFlow.toEvent flows allocated

end Ingest

/-! ## Events at an instant -/

/-- Equal in every field under `==`, the times as instants. -/
def Event.equalAt (a b : Event) : Bool :=
  a.time.instant == b.time.instant && { a with time := b.time }.goEq b

namespace Event

theorem time_eq_of_instant {t u : Time} (h : t.instant = u.instant) (hloc : t.loc = u.loc) : t = u := by
  obtain ⟨⟨w, hw⟩, e, l⟩ := t
  obtain ⟨⟨w', hw'⟩, e', l'⟩ := u
  simp only [Time.instant] at h hloc
  obtain rfl : e = e' := by omega
  obtain rfl : w = w' := by omega
  rw [hloc]

theorem equalAt_iff (a b : Event) : a.equalAt b = true ↔ a.time.instant = b.time.instant ∧
    a.identityID = b.identityID ∧ a.type = b.type ∧ a.outcome = b.outcome ∧ a.ip = b.ip ∧
    a.city = b.city ∧ a.country = b.country ∧ a.lat.goEq b.lat = true ∧ a.lon.goEq b.lon = true ∧
    a.device = b.device ∧ a.resource = b.resource ∧ a.severity = b.severity ∧ a.source = b.source := by
  simp [equalAt, goEq_iff]

theorem equalAt_symm {a b : Event} (h : a.equalAt b = true) : b.equalAt a = true := by
  rw [equalAt_iff] at h ⊢
  obtain ⟨h1, h2, h3, h4, h5, h6, h7, h8, h9, h10, h11, h12, h13⟩ := h
  exact ⟨h1.symm, h2.symm, h3.symm, h4.symm, h5.symm, h6.symm, h7.symm, F64.goEq_symm h8,
    F64.goEq_symm h9, h10.symm, h11.symm, h12.symm, h13.symm⟩

theorem equalAt_trans {a b c : Event} (h : a.equalAt b = true) (h' : b.equalAt c = true) :
    a.equalAt c = true := by
  rw [equalAt_iff] at h h' ⊢
  obtain ⟨h1, h2, h3, h4, h5, h6, h7, h8, h9, h10, h11, h12, h13⟩ := h
  obtain ⟨k1, k2, k3, k4, k5, k6, k7, k8, k9, k10, k11, k12, k13⟩ := h'
  exact ⟨h1.trans k1, h2.trans k2, h3.trans k3, h4.trans k4, h5.trans k5, h6.trans k6, h7.trans k7,
    F64.goEq_trans h8 k8, F64.goEq_trans h9 k9, h10.trans k10, h11.trans k11, h12.trans k12,
    h13.trans k13⟩

/-- **Equal events are one key** exactly when their times point to one location. -/
theorem goEq_iff_equalAt (a b : Event) :
    a.goEq b = true ↔ a.equalAt b = true ∧ a.time.loc = b.time.loc := by
  rw [goEq_iff, equalAt_iff]
  constructor
  · rintro ⟨ht, h⟩
    exact ⟨⟨congrArg Time.instant ht, h⟩, congrArg Time.loc ht⟩
  · rintro ⟨⟨ht, h⟩, hloc⟩
    exact ⟨time_eq_of_instant ht hloc, h⟩

theorem equalAt_self {a : Event} (h : a.noNaN = true) : a.equalAt a = true :=
  ((goEq_iff_equalAt a a).mp (goEq_self h)).1

end Event

/-! ## Stored once -/

/-- A graph to which the events were added holds each of them once. -/
def StoredOnce (p : GoString → Bool) (es : List Event) : Prop :=
  ∀ e ∈ es, ((es.foldl Store.addEvent (Store.new p)).history e.identityID).countP (e.equalAt ·) = 1

theorem countP_history (p : GoString → Bool) (es : List Event) (e : Event) :
    ((es.foldl Store.addEvent (Store.new p)).history e.identityID).countP (e.equalAt ·) =
      (KeepFirst.keepFirst Event.goEq [] es).countP (e.equalAt ·) := by
  rw [Store.history_eq, (List.perm_insertionSort _ _).countP_eq,
    Store.eventsAt_addEvents (Store.coherent_new p), List.countP_filter]
  refine List.countP_congr fun k _ => ?_
  rw [Bool.and_eq_true, decide_eq_true_iff]
  constructor
  · exact And.left
  · exact fun h => ⟨h, ((Event.equalAt_iff e k).mp h).2.1.symm⟩

/-- **Each event is stored once** exactly when equal events point to one location. -/
theorem storedOnce_iff (p : GoString → Bool) {es : List Event} (hn : ∀ e ∈ es, e.noNaN = true) :
    StoredOnce p es ↔ ∀ a ∈ es, ∀ b ∈ es, a.equalAt b = true → a.time.loc = b.time.loc := by
  have hkept : ∀ a ∈ es, ∃ k ∈ KeepFirst.keepFirst Event.goEq [] es, k.goEq a = true := by
    intro a ha
    obtain ⟨k, hk, rfl | hka⟩ := KeepFirst.exists_keepFirst (r := Event.goEq) [] ha
    · exact ⟨k, hk, Event.goEq_self (hn k ha)⟩
    · exact ⟨k, hk, hka⟩
  have hcount : ∀ e : Event,
      ((es.foldl Store.addEvent (Store.new p)).history e.identityID).countP (e.equalAt ·) =
        ((KeepFirst.keepFirst Event.goEq [] es).filter (e.equalAt ·)).length := by
    intro e
    rw [countP_history, List.countP_eq_length_filter]
  constructor
  · intro h a ha b hb hab
    obtain ⟨c, hc⟩ := List.length_eq_one_iff.mp ((hcount a).symm.trans (h a ha))
    have honly : ∀ x ∈ es, a.equalAt x = true → x.time.loc = c.time.loc := by
      intro x hx hax
      obtain ⟨k, hk, hkx⟩ := hkept x hx
      have hloc := (Event.goEq_iff_equalAt k x).mp hkx
      have hmem : k ∈ (KeepFirst.keepFirst Event.goEq [] es).filter (a.equalAt ·) :=
        List.mem_filter.mpr ⟨hk, Event.equalAt_trans hax (Event.equalAt_symm hloc.1)⟩
      rw [hc, List.mem_singleton] at hmem
      rw [← hloc.2, hmem]
    rw [honly a ha (Event.equalAt_self (hn a ha)), honly b hb hab]
  · intro h a ha
    rw [hcount]
    obtain ⟨k, hk, hka⟩ := hkept a ha
    have hpw := (KeepFirst.keepFirst_pairwise (r := Event.goEq) List.Pairwise.nil es).filter
      (a.equalAt ·)
    have hmem : k ∈ (KeepFirst.keepFirst Event.goEq [] es).filter (a.equalAt ·) :=
      List.mem_filter.mpr ⟨hk, Event.equalAt_symm ((Event.goEq_iff_equalAt k a).mp hka).1⟩
    have hes : ∀ x ∈ (KeepFirst.keepFirst Event.goEq [] es).filter (a.equalAt ·),
        x ∈ es ∧ a.equalAt x = true := by
      intro x hx
      obtain ⟨hx, hax⟩ := List.mem_filter.mp hx
      exact ⟨(KeepFirst.mem_of_mem_keepFirst hx).resolve_left List.not_mem_nil, hax⟩
    -- two kept events equal to `a` would be one key
    cases hl : (KeepFirst.keepFirst Event.goEq [] es).filter (a.equalAt ·) with
    | nil =>
      rw [hl] at hmem
      exact absurd hmem List.not_mem_nil
    | cons x rest =>
      cases rest with
      | nil => rfl
      | cons y rest =>
        rw [hl] at hpw hes
        obtain ⟨hx, hax⟩ := hes x (by simp)
        obtain ⟨hy, hay⟩ := hes y (by simp)
        have hxy := Event.equalAt_trans (Event.equalAt_symm hax) hay
        have hgo := (Event.goEq_iff_equalAt x y).mpr ⟨hxy, h x hx y hy hxy⟩
        rw [(List.pairwise_cons.mp hpw).1 y (by simp)] at hgo
        cases hgo

namespace Ingest

/-! ## What a reader makes of its entries -/

section Reader

variable {ρ : Type} {P : Parser} {timeOf : ρ → GoString} {event : ρ → Time → Event} {rs : List ρ}

/-- The location of a time parsed while locations `n` up to `m` were allocated. -/
def LocatedAt (P : Parser) (st : Stamp) (n m : Nat) (loc : Option Nat) : Prop :=
  P.shared st = some loc ∨ P.shared st = none ∧ ∃ k, n ≤ k ∧ k < m ∧ loc = some (28 + k)

theorem parse_some {n : Nat} {s : GoString} {st : Stamp} (h : P.stamp s = some st) :
    ∃ loc, (P.parse n s).1 = some ⟨st.wall, st.ext, loc⟩ ∧ n ≤ (P.parse n s).2 ∧
      LocatedAt P st n (P.parse n s).2 loc := by
  unfold Parser.parse LocatedAt
  rw [h]
  dsimp only
  cases hs : P.shared st with
  | some loc => exact ⟨loc, rfl, le_refl n, Or.inl rfl⟩
  | none => exact ⟨some (28 + n), rfl, Nat.le_succ n, Or.inr ⟨rfl, n, le_refl n, Nat.lt_succ_self n, rfl⟩⟩

theorem parse_none {n : Nat} {s : GoString} (h : P.stamp s = none) : P.parse n s = (none, n) := by
  unfold Parser.parse
  rw [h]

theorem LocatedAt.mono {st : Stamp} {n m n' m' : Nat} {loc : Option Nat} (h : LocatedAt P st n m loc)
    (hn : n' ≤ n) (hm : m ≤ m') : LocatedAt P st n' m' loc := by
  rcases h with h | ⟨h, k, hk, hkm, rfl⟩
  · exact Or.inl h
  · exact Or.inr ⟨h, k, by omega, by omega, rfl⟩

theorem shared_ne {st : Stamp} {loc : Option Nat} (h : P.shared st = some loc) (k : Nat) :
    loc ≠ some (28 + k) := by
  unfold Parser.shared at h
  cases hoffset : st.offset with
  | none =>
    rw [hoffset, Option.some.injEq] at h
    rw [← h]
    exact fun h => by cases h
  | some offset =>
    rw [hoffset] at h
    dsimp only at h
    split_ifs at h with hlocal hhour
    · rw [Option.some.injEq] at h
      rw [← h, timeLocal, Ne, Option.some.injEq]
      omega
    · rw [Option.some.injEq] at h
      rw [← h, Ne, Option.some.injEq]
      omega

theorem LocatedAt.eq_of_shared {st : Stamp} {n m : Nat} {loc l : Option Nat} (h : LocatedAt P st n m loc)
    (hl : P.shared st = some l) : loc = l := by
  rcases h with h | ⟨h, -⟩
  · rw [h, Option.some.injEq] at hl
    exact hl
  · rw [h] at hl
    cases hl

theorem LocatedAt.shared_of_later {st st' : Stamp} {n m k : Nat} {loc loc' : Option Nat}
    (h : LocatedAt P st n m loc) (h' : LocatedAt P st' m k loc') (heq : loc = loc') :
    ∃ l, P.shared st = some l ∧ P.shared st' = some l := by
  subst heq
  rcases h with h | ⟨-, i, -, him, rfl⟩
  · rcases h' with h' | ⟨-, j, -, -, rfl⟩
    · exact ⟨loc, h, h'⟩
    · exact absurd rfl (shared_ne h j)
  · rcases h' with h' | ⟨-, j, hmj, -, hij⟩
    · exact absurd rfl (shared_ne h' i)
    · rw [Option.some.injEq] at hij
      omega

theorem parseLog_cons_none (event : ρ → Time → Event) (rs : List ρ) (n : Nat) {r : ρ}
    (h : P.stamp (timeOf r) = none) :
    (parseLog P timeOf event (r :: rs) n).1 = (parseLog P timeOf event rs n).1 ∧
      (parseLog P timeOf event (r :: rs) n).2.2 = (parseLog P timeOf event rs n).2.2 := by
  rw [parseLog, parse_none h]
  exact ⟨rfl, rfl⟩

theorem parseLog_cons_some (event : ρ → Time → Event) (rs : List ρ) (n : Nat) {r : ρ} {st : Stamp}
    (h : P.stamp (timeOf r) = some st) :
    ∃ loc n', (parseLog P timeOf event (r :: rs) n).1 =
        event r ⟨st.wall, st.ext, loc⟩ :: (parseLog P timeOf event rs n').1 ∧
      (parseLog P timeOf event (r :: rs) n).2.2 = (parseLog P timeOf event rs n').2.2 ∧
      n ≤ n' ∧ LocatedAt P st n n' loc := by
  obtain ⟨loc, hparse, hle, hloc⟩ := parse_some (n := n) h
  refine ⟨loc, (P.parse n (timeOf r)).2, ?_, ?_, hle, hloc⟩
  · rw [parseLog]
    dsimp only
    rw [hparse]
  · rw [parseLog]
    dsimp only
    rw [hparse]

theorem allocated_le (rs : List ρ) (n : Nat) : n ≤ (parseLog P timeOf event rs n).2.2 := by
  induction rs generalizing n with
  | nil => exact le_refl n
  | cons r rs ih =>
    cases hst : P.stamp (timeOf r) with
    | none =>
      rw [(parseLog_cons_none event rs n hst).2]
      exact ih n
    | some st =>
      obtain ⟨_, n', -, hn', hle, -⟩ := parseLog_cons_some event rs n hst
      rw [hn']
      exact hle.trans (ih n')

/-- **The events of a log** are those of its well-formed entries, each at its location. -/
theorem mem_parseLog {n : Nat} {e : Event} (he : e ∈ (parseLog P timeOf event rs n).1) :
    ∃ r ∈ rs, ∃ st loc, P.stamp (timeOf r) = some st ∧ e = event r ⟨st.wall, st.ext, loc⟩ ∧
      LocatedAt P st n (parseLog P timeOf event rs n).2.2 loc := by
  induction rs generalizing n with
  | nil => exact absurd he List.not_mem_nil
  | cons r rs ih =>
    cases hst : P.stamp (timeOf r) with
    | none =>
      obtain ⟨hout, hn⟩ := parseLog_cons_none event rs n hst
      rw [hout] at he
      rw [hn]
      obtain ⟨r', hr', h⟩ := ih he
      exact ⟨r', List.mem_cons_of_mem r hr', h⟩
    | some st =>
      obtain ⟨loc, n', hout, hn', hle, hloc⟩ := parseLog_cons_some event rs n hst
      rw [hout] at he
      rw [hn']
      rcases List.mem_cons.mp he with rfl | he
      · exact ⟨r, List.mem_cons_self, st, loc, hst, rfl, hloc.mono (le_refl n) (allocated_le rs n')⟩
      · obtain ⟨r', hr', st', loc', hst', heq, hloc'⟩ := ih he
        exact ⟨r', List.mem_cons_of_mem r hr', st', loc', hst', heq, hloc'.mono hle (le_refl _)⟩

theorem exists_mem_parseLog (event : ρ → Time → Event) (n : Nat) {r : ρ} (hr : r ∈ rs) {st : Stamp}
    (hst : P.stamp (timeOf r) = some st) : ∃ loc,
      event r ⟨st.wall, st.ext, loc⟩ ∈ (parseLog P timeOf event rs n).1 ∧
        LocatedAt P st n (parseLog P timeOf event rs n).2.2 loc := by
  induction rs generalizing n with
  | nil => exact absurd hr List.not_mem_nil
  | cons r' rs ih =>
    cases hst' : P.stamp (timeOf r') with
    | none =>
      obtain ⟨hout, hn⟩ := parseLog_cons_none event rs n hst'
      rw [hout, hn]
      rcases List.mem_cons.mp hr with rfl | hr
      · rw [hst] at hst'
        cases hst'
      · exact ih n hr
    | some st' =>
      obtain ⟨loc, n', hout, hn', hle, hloc⟩ := parseLog_cons_some event rs n hst'
      rw [hout, hn']
      rcases List.mem_cons.mp hr with rfl | hr
      · rw [hst, Option.some.injEq] at hst'
        subst hst'
        exact ⟨loc, List.mem_cons_self, hloc.mono (le_refl n) (allocated_le rs n')⟩
      · obtain ⟨loc', hmem, hloc'⟩ := ih n' hr
        exact ⟨loc', List.mem_cons_of_mem _ hmem, hloc'.mono hle (le_refl _)⟩

theorem parseLog_append (P : Parser) (timeOf : ρ → GoString) (event : ρ → Time → Event)
    (xs ys : List ρ) (n : Nat) : (parseLog P timeOf event (xs ++ ys) n).1 =
      (parseLog P timeOf event xs n).1 ++
        (parseLog P timeOf event ys (parseLog P timeOf event xs n).2.2).1 := by
  induction xs generalizing n with
  | nil => rfl
  | cons x xs ih =>
    rw [List.cons_append, parseLog, parseLog]
    obtain ⟨t, m⟩ := P.parse n (timeOf x)
    cases t with
    | none => exact ih m
    | some t => exact congrArg (List.cons _) (ih m)

end Reader

/-! ## A log that is loaded twice -/

/-- A log, in one of the two formats. -/
inductive Log where
  | okta (raw : List OktaEvent)
  | egress (flows : List EgressFlow)

namespace Log

/-- The events of the log, its times parsed when so many locations were allocated. -/
def parse (P : Parser) : Log → Nat → List Event × Report × Nat
  | okta raw, allocated => Ingest.okta P raw allocated
  | egress flows, allocated => Ingest.egress P flows allocated

/-- The events of the log parsed twice. -/
def twice (P : Parser) (log : Log) (allocated : Nat) : List Event :=
  (log.parse P allocated).1 ++ (log.parse P (log.parse P allocated).2.2).1

/-- The text and the fields of each entry. -/
def entries : Log → List (GoString × (Time → Event))
  | okta raw => raw.map fun r => (r.published, r.toEvent)
  | egress flows => flows.map fun f => (f.time, f.toEvent)

/-- Entries of equal events, each with itself, have the same shared location. -/
def Shared (P : Parser) (log : Log) : Prop :=
  ∀ r ∈ log.entries, ∀ r' ∈ log.entries, ∀ st st', P.stamp r.1 = some st → P.stamp r'.1 = some st' →
    (r.2 ⟨st.wall, st.ext, none⟩).equalAt (r'.2 ⟨st'.wall, st'.ext, none⟩) = true →
      ∃ loc, P.shared st = some loc ∧ P.shared st' = some loc

theorem parse_eq (P : Parser) (log : Log) (n : Nat) :
    log.parse P n = parseLog P Prod.fst Prod.snd log.entries n := by
  have hmap : ∀ {ρ : Type} (timeOf : ρ → GoString) (event : ρ → Time → Event) (rs : List ρ) (n : Nat),
      parseLog P timeOf event rs n =
        parseLog P Prod.fst Prod.snd (rs.map fun r => (timeOf r, event r)) n := by
    intro ρ timeOf event rs
    induction rs with
    | nil => exact fun _ => rfl
    | cons r rs ih =>
      intro n
      rw [List.map_cons, parseLog, parseLog]
      dsimp only
      rw [ih]
  cases log with
  | okta raw => exact hmap OktaEvent.published OktaEvent.toEvent raw n
  | egress flows => exact hmap EgressFlow.time EgressFlow.toEvent flows n

theorem entry_event {log : Log} {r : GoString × (Time → Event)} (hr : r ∈ log.entries) (t : Time) :
    (r.2 t).time = t ∧ (r.2 t).noNaN = true ∧ ∀ u, { r.2 t with time := u } = r.2 u := by
  cases log with
  | okta raw =>
    obtain ⟨o, -, rfl⟩ := List.mem_map.mp hr
    refine ⟨rfl, ?_, fun _ => rfl⟩
    show (!o.lat.isNaN && !o.lon.isNaN) = true
    rw [o.noNaN.1, o.noNaN.2]
    rfl
  | egress flows =>
    obtain ⟨o, -, rfl⟩ := List.mem_map.mp hr
    have hzero : (!(default : F64).isNaN && !(default : F64).isNaN) = true := by decide
    exact ⟨rfl, hzero, fun _ => rfl⟩

theorem equalAt_entries {log : Log} {r r' : GoString × (Time → Event)} (hr : r ∈ log.entries)
    (hr' : r' ∈ log.entries) (st st' : Stamp) (loc loc' : Option Nat) :
    (r.2 ⟨st.wall, st.ext, loc⟩).equalAt (r'.2 ⟨st'.wall, st'.ext, loc'⟩) =
      (r.2 ⟨st.wall, st.ext, none⟩).equalAt (r'.2 ⟨st'.wall, st'.ext, none⟩) := by
  have h := fun t => (entry_event hr t).2.2
  have h' := fun t => (entry_event hr' t).2.2
  rw [← h ⟨st.wall, st.ext, none⟩ ⟨st.wall, st.ext, loc⟩, ← h' ⟨st'.wall, st'.ext, none⟩
    ⟨st'.wall, st'.ext, loc'⟩, Bool.eq_iff_iff, Event.equalAt_iff, Event.equalAt_iff]
  rw [(entry_event hr _).1, (entry_event hr' _).1]
  exact Iff.rfl

/-- **Each event of a log that is loaded twice is stored once** exactly when its entries have shared
locations. -/
theorem twice_storedOnce (p : GoString → Bool) (P : Parser) (log : Log) (n : Nat) :
    StoredOnce p (log.twice P n) ↔ log.Shared P := by
  have hmem : ∀ e ∈ log.twice P n, ∃ r ∈ log.entries, ∃ st loc, P.stamp r.1 = some st ∧
      e = r.2 ⟨st.wall, st.ext, loc⟩ ∧ ∃ a b, LocatedAt P st a b loc := by
    intro e he
    rcases List.mem_append.mp he with he | he
    · rw [parse_eq] at he
      obtain ⟨r, hr, st, loc, hst, heq, hloc⟩ := mem_parseLog he
      exact ⟨r, hr, st, loc, hst, heq, _, _, hloc⟩
    · rw [parse_eq] at he
      obtain ⟨r, hr, st, loc, hst, heq, hloc⟩ := mem_parseLog he
      exact ⟨r, hr, st, loc, hst, heq, _, _, hloc⟩
  have hnoNaN : ∀ e ∈ log.twice P n, e.noNaN = true := by
    intro e he
    obtain ⟨r, hr, st, loc, -, rfl, -⟩ := hmem e he
    exact (entry_event hr _).2.1
  rw [storedOnce_iff p hnoNaN]
  constructor
  · intro h r hr r' hr' st st' hst hst' heq
    -- the entry as the first reading has it, the other as the second has
    obtain ⟨loc, hfirst, hloc⟩ := exists_mem_parseLog Prod.snd n hr hst
    obtain ⟨loc', hsecond, hloc'⟩ :=
      exists_mem_parseLog Prod.snd (log.parse P n).2.2 hr' hst'
    rw [← parse_eq] at hfirst hsecond hloc hloc'
    have hsame := h _ (List.mem_append_left _ hfirst) _ (List.mem_append_right _ hsecond)
      ((equalAt_entries hr hr' st st' loc loc').trans heq)
    rw [(entry_event hr _).1, (entry_event hr' _).1] at hsame
    exact hloc.shared_of_later hloc' hsame
  · intro h a ha b hb hab
    obtain ⟨r, hr, st, loc, hst, rfl, _, _, hloc⟩ := hmem a ha
    obtain ⟨r', hr', st', loc', hst', rfl, _, _, hloc'⟩ := hmem b hb
    rw [equalAt_entries hr hr'] at hab
    obtain ⟨l, hl, hl'⟩ := h r hr r' hr' st st' hst hst' hab
    rw [(entry_event hr _).1, (entry_event hr' _).1]
    exact (hloc.eq_of_shared hl).trans (hloc'.eq_of_shared hl').symm

end Log

/-- **When each event is stored once**: of a log that is loaded twice, and of two equal events. -/
theorem twice_storedOnce_iff (p : GoString → Bool) :
    (∀ (P : Parser) (log : Log) (n : Nat), StoredOnce p (log.twice P n) ↔ log.Shared P) ∧
      ∀ a b : Event, a.equalAt b = true → (StoredOnce p [a, b] ↔ a.time.loc = b.time.loc) := by
  refine ⟨Log.twice_storedOnce p, fun a b hab => ?_⟩
  have hnoNaN : ∀ e : Event, e.equalAt e = true → e.noNaN = true := by
    intro e he
    obtain ⟨-, -, -, -, -, -, -, hlat, hlon, -⟩ := (Event.equalAt_iff e e).mp he
    rw [Event.noNaN, ((F64.goEq_iff _ _).mp hlat).1, ((F64.goEq_iff _ _).mp hlon).1]
    rfl
  have hba := Event.equalAt_symm hab
  have hn : ∀ e ∈ [a, b], e.noNaN = true := by
    intro e he
    simp only [List.mem_cons, List.not_mem_nil, or_false] at he
    rcases he with rfl | rfl
    · exact hnoNaN _ (Event.equalAt_trans hab hba)
    · exact hnoNaN _ (Event.equalAt_trans hba hab)
  rw [storedOnce_iff p hn]
  simp only [List.mem_cons, List.not_mem_nil, or_false, forall_eq_or_imp, forall_eq]
  constructor
  · exact fun h => h.1.2 hab
  · exact fun h => ⟨⟨fun _ => trivial, fun _ => h⟩, fun _ => h.symm, fun _ => trivial⟩

/-! ## A time at half past -/

/-- The parser of a process whose local zone is UTC. -/
def utcParser : Parser := ⟨Time.parseRFC3339, fun _ => 0⟩

/-- A challenge at half past the hour of UTC, as a log keeps it that is written in India. -/
def halfHour : Log :=
  .okta [{ published := "2026-05-29T10:00:00+05:30"
           eventType := "system.push.send_factor_verify_push"
           result := "SUCCESS"
           alternateID := "alice@example.com"
           ipAddress := ""
           rawUserAgent := ""
           city := ""
           country := ""
           lat := ⟨0⟩
           lon := ⟨0⟩
           noNaN := ⟨rfl, rfl⟩ }]

/-- **A log that is loaded twice is stored twice**: each time its offset is a location of its own. -/
theorem halfHour_stored_twice :
    ¬ ∀ (p : GoString → Bool) (P : Parser) (log : Log) (n : Nat), StoredOnce p (log.twice P n) := by
  intro h
  have hcount : ∀ e ∈ halfHour.twice utcParser 0,
      (((halfHour.twice utcParser 0).foldl Store.addEvent (Store.new fun _ => false)).history
        e.identityID).countP (e.equalAt ·) = 2 := by
    decide +kernel
  have hone := h (fun _ => false) utcParser halfHour 0
  have hne : halfHour.twice utcParser 0 ≠ [] := by decide +kernel
  obtain ⟨e, he⟩ := List.exists_mem_of_ne_nil _ hne
  have := hone e he
  rw [hcount e he] at this
  cases this

end Ingest

end Idryx
