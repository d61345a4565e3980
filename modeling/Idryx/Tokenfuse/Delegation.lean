import Idryx.Tokenfuse.Load
import Idryx.Graph.Folds

/-!
# The delegation chain an agent is ingested with

An agent's identity is made at the first event that names it, and carries the chain of that event.

* `FirstOfEach`: of each agent there is one identity, made from its first event; it holds of a blob
  (`firstOfEach_emit`) and of a load (`firstOfEach_loadFiles`);
* **`chainOf_ingest`**: so the chain in the graph is that of the first event of the agent;
* `Kept`: no principal of any event is lost; `Covers`: the first event of an agent names them all;
  `Agreeing`: the events of an agent all name the same;
* `rearranged`: a blob with its lines in another order; `agreeing_of_rearranged`;
* **`delegation_kept_iff`**: no principal is lost exactly when the first events cover the others, and no order
  changes the principals exactly when the events agree;
* `chain_lost`: an agent whose first event has no chain.
-/

namespace Idryx

/-- The chain an identity of the graph acts on behalf of. -/
def Store.chainOf (s : Store) (id : GoString) : List GoString :=
  ((s.find id).map Identity.onBehalfOf).getD []

theorem onBehalfOf_foldl_eq {c : List GoString} {is : List Identity}
    (h : ∀ i ∈ is, i.onBehalfOf = [] ∨ i.onBehalfOf = c) {j : Identity} (hj : j.onBehalfOf = c) :
    (is.foldl mergeIdentity j).onBehalfOf = c := by
  induction is generalizing j with
  | nil => exact hj
  | cons i is ih =>
    refine ih (fun k hk => h k (List.mem_cons_of_mem _ hk)) ?_
    show (if i.onBehalfOf ≠ [] then i.onBehalfOf else j.onBehalfOf) = c
    split_ifs with hi
    · exact (h i List.mem_cons_self).resolve_left hi
    · exact hj

theorem onBehalfOf_foldl_of_mem {c : List GoString} {is : List Identity}
    (h : ∀ i ∈ is, i.onBehalfOf = [] ∨ i.onBehalfOf = c) (hc : c ≠ [] → ∃ i ∈ is, i.onBehalfOf = c)
    {j : Identity} (hj : j.onBehalfOf = []) : (is.foldl mergeIdentity j).onBehalfOf = c := by
  by_cases hnil : c = []
  · exact onBehalfOf_foldl_eq h (hj.trans hnil.symm)
  obtain ⟨i, hi, hic⟩ := hc hnil
  obtain ⟨is₁, is₂, rfl⟩ := List.append_of_mem hi
  rw [List.foldl_append, List.foldl_cons]
  refine onBehalfOf_foldl_eq (fun k hk => h k (by simp [hk])) ?_
  show (if i.onBehalfOf ≠ [] then i.onBehalfOf else _) = c
  rw [if_pos (hic ▸ hnil), hic]

namespace Tokenfuse

variable {B : Bus}

/-- The chain of the first event of an agent. -/
def firstChain (xs : List (Envelope × Time)) (id : GoString) : List GoString :=
  ((xs.find? (·.1.agentID == id)).map (·.1.onBehalfOf)).getD []

variable (B) in
/-- The identity has the id of an agent, and the type its identity is made with. -/
def isAgentNode (id : GoString) (i : Identity) : Bool :=
  i.id == id && (i.type == identityAgent) == !B.isClaimedSubject id

variable (B) in
/-- Of each agent there is one identity, made from its first event; the others have no chain. -/
structure FirstOfEach (xs : List (Envelope × Time)) (is : List Identity) : Prop where
  agents : ∀ id, is.find? (isAgentNode B id) =
    (xs.find? (·.1.agentID == id)).map fun x => agentIdentity B x.1
  once : ∀ id, is.filter (isAgentNode B id) = (is.find? (isAgentNode B id)).toList
  others : ∀ i ∈ is, isAgentNode B i.id i = true ∨ i.onBehalfOf = []

/-! ## One blob -/

theorem isAgentNode_agentIdentity (env : Envelope) (id : GoString) :
    isAgentNode B id (agentIdentity B env) = (env.agentID == id) := by
  show ((env.agentID == id) &&
    ((if B.isClaimedSubject env.agentID then identityHuman else identityAgent) == identityAgent) ==
      !B.isClaimedSubject id) = _
  by_cases hid : env.agentID = id
  · subst hid
    rw [beq_self_eq_true, Bool.true_and]
    cases B.isClaimedSubject env.agentID <;> decide
  · simp [hid]

theorem not_claimed_of_isUser {p : GoString} (hp : isUser p = true) :
    B.isClaimedSubject p = false := by
  rw [Bool.eq_false_iff]
  intro hc
  have hclaimed := B.claimed_prefix p hc
  rw [Strings.hasPrefix, List.isPrefixOf_iff_prefix] at hclaimed
  rw [isUser, Strings.hasPrefix, List.isPrefixOf_iff_prefix] at hp
  obtain ⟨t, ht⟩ := hclaimed
  obtain ⟨u, hu⟩ := hp
  have hhead : (some 0x63 : Option UInt8) = some 0x75 := by
    have h1 : p.head? = some 0x63 := by
      rw [← ht]
      rfl
    have h2 : p.head? = some 0x75 := by
      rw [← hu]
      rfl
    rw [← h1, h2]
  exact absurd hhead (by decide)

theorem isAgentNode_humanIdentity (env : Envelope) {p : GoString} (hp : isUser p = true)
    (id : GoString) : isAgentNode B id (humanIdentity env p) = false := by
  show ((p == id) && (identityHuman == identityAgent) == !B.isClaimedSubject id) = false
  by_cases hid : p = id
  · subst hid
    rw [not_claimed_of_isUser hp]
    simp [identityHuman, identityAgent]
    decide
  · simp [hid]

/-- The entry is that of the agent. -/
def isAgentEntry (id : GoString) (k : Bool × Identity) : Bool := k.1 && k.2.id == id

theorem isAgentNode_entry {env : Envelope} {k : Bool × Identity} (hk : k ∈ entries B env)
    (id : GoString) : isAgentNode B id k.2 = isAgentEntry id k := by
  rcases List.mem_cons.mp hk with rfl | hk
  · exact isAgentNode_agentIdentity env id
  · obtain ⟨p, hp, rfl⟩ := List.mem_map.mp hk
    exact isAgentNode_humanIdentity env (List.mem_filter.mp hp).2 id

theorem find?_entries (xs : List (Envelope × Time)) (id : GoString) :
    (xs.flatMap fun x => entries B x.1).find? (isAgentEntry id) =
      (xs.find? (·.1.agentID == id)).map fun x => (true, agentIdentity B x.1) := by
  induction xs with
  | nil => rfl
  | cons x xs ih =>
    have hhumans : ((x.1.onBehalfOf.filter isUser).map fun p => (false, humanIdentity x.1 p)).find?
        (isAgentEntry id) = none := by
      rw [List.find?_eq_none]
      intro k hk
      obtain ⟨p, -, rfl⟩ := List.mem_map.mp hk
      exact Bool.false_ne_true
    have hagent : isAgentEntry id (true, agentIdentity B x.1) = (x.1.agentID == id) := rfl
    rw [List.flatMap_cons, entries, List.cons_append, List.find?_cons, List.find?_append, hhumans, ih,
      hagent, List.find?_cons]
    cases x.1.agentID == id <;> rfl

/-- **The agents of a blob.** -/
theorem firstOfEach_emit (xs : List (Envelope × Time)) :
    FirstOfEach B xs (emit B xs).identities := by
  have hmem : ∀ k ∈ KeepFirst.keepFirst sameEntry [] (xs.flatMap fun x => entries B x.1),
      ∃ x ∈ xs, k ∈ entries B x.1 := fun k hk =>
    List.mem_flatMap.mp ((KeepFirst.mem_of_mem_keepFirst hk).resolve_left List.not_mem_nil)
  have hfilter : ∀ id, (emit B xs).identities.filter (isAgentNode B id) =
      ((xs.find? (·.1.agentID == id)).map fun x => agentIdentity B x.1).toList := by
    intro id
    have hclass := KeepFirst.filter_keepFirst_class (r := sameEntry) (p := isAgentEntry id)
      (by
        rintro ⟨a, i⟩ ⟨b, j⟩ h
        simp only [sameEntry, Bool.and_eq_true, beq_iff_eq] at h
        simp [isAgentEntry, h.1, h.2])
      (by
        rintro ⟨a, i⟩ ⟨b, j⟩ ha hb
        simp only [isAgentEntry, Bool.and_eq_true, beq_iff_eq] at ha hb
        simp [sameEntry, ha.1, hb.1, ha.2, hb.2])
      (xs.flatMap fun x => entries B x.1)
    have hcongr : (KeepFirst.keepFirst sameEntry [] (xs.flatMap fun x => entries B x.1)).filter
        (isAgentNode B id ∘ Prod.snd) =
        (KeepFirst.keepFirst sameEntry [] (xs.flatMap fun x => entries B x.1)).filter
          (isAgentEntry id) := by
      refine List.filter_congr fun k hk => ?_
      obtain ⟨x, -, hkx⟩ := hmem k hk
      exact isAgentNode_entry hkx id
    rw [emit_identities, List.filter_map, hcongr, hclass, find?_entries]
    cases xs.find? (·.1.agentID == id) <;> rfl
  have hagents : ∀ id, (emit B xs).identities.find? (isAgentNode B id) =
      (xs.find? (·.1.agentID == id)).map fun x => agentIdentity B x.1 := by
    intro id
    rw [← List.head?_filter, hfilter]
    cases xs.find? (·.1.agentID == id) <;> rfl
  refine ⟨hagents, fun id => ?_, fun i hi => ?_⟩
  · rw [hfilter, hagents]
  · rw [emit_identities] at hi
    obtain ⟨k, hk, rfl⟩ := List.mem_map.mp hi
    obtain ⟨x, -, hkx⟩ := hmem k hk
    rcases List.mem_cons.mp hkx with rfl | hkx
    · refine Or.inl ?_
      rw [isAgentNode_agentIdentity]
      exact beq_self_eq_true _
    · obtain ⟨p, -, rfl⟩ := List.mem_map.mp hkx
      exact Or.inr rfl

/-! ## Several files -/

/-- The admitted events of the files, in the order they are read. -/
def admittedFiles (B : Bus) (policy : Stream.Policy) (files : List (GoString × GoString)) :
    List (Envelope × Time) :=
  files.flatMap fun f => admitted B (some policy) f.1 f.2

theorem firstOfEach_parse (pol : Option Stream.Policy) (data file : GoString) :
    FirstOfEach B (admitted B pol file data) (parse B data file pol).identities := by
  rw [(parse_out B pol file data).1]
  exact firstOfEach_emit _

theorem find?_yielded (policy : Stream.Policy) (files : List (GoString × GoString)) (id : GoString) :
    (yielded B policy files).find? (isAgentNode B id) =
      ((admittedFiles B policy files).find? (·.1.agentID == id)).map fun x => agentIdentity B x.1 := by
  induction files with
  | nil => rfl
  | cons f files ih =>
    have hfile := (firstOfEach_parse (B := B) (some policy) f.2 f.1).agents id
    rw [yielded] at ih
    rw [yielded, List.flatMap_cons, List.find?_append, hfile, ih, admittedFiles, admittedFiles,
      List.flatMap_cons, List.find?_append]
    cases (admitted B (some policy) f.1 f.2).find? (·.1.agentID == id) <;> rfl

/-- **The agents of a load.** -/
theorem firstOfEach_loadFiles (policy : Stream.Policy) (files : List (GoString × GoString)) :
    FirstOfEach B (admittedFiles B policy files) (loadFiles B policy files).out.identities := by
  have hfilter : ∀ id, (loadFiles B policy files).out.identities.filter (isAgentNode B id) =
      ((yielded B policy files).find? (isAgentNode B id)).toList := by
    intro id
    rw [identities_loadFiles]
    refine KeepFirst.filter_keepFirst_class (fun i j h => ?_) (fun i j hi hj => ?_) _
    · simp only [sameNode, sameEntry, nodeEntry, Bool.and_eq_true, beq_iff_eq] at h
      simp only [isAgentNode, h.1, h.2]
    · simp only [isAgentNode, Bool.and_eq_true, beq_iff_eq] at hi hj
      simp only [sameNode, sameEntry, nodeEntry, hi.1, hj.1, hi.2, hj.2, beq_self_eq_true, Bool.and_self]
  have hagents : ∀ id, (loadFiles B policy files).out.identities.find? (isAgentNode B id) =
      ((admittedFiles B policy files).find? (·.1.agentID == id)).map
        fun x => agentIdentity B x.1 := by
    intro id
    rw [← find?_yielded, ← List.head?_filter, hfilter]
    cases (yielded B policy files).find? (isAgentNode B id) <;> rfl
  refine ⟨hagents, fun id => ?_, fun i hi => ?_⟩
  · rw [hfilter, hagents, find?_yielded]
  · rw [identities_loadFiles] at hi
    obtain ⟨f, -, hif⟩ := List.mem_flatMap.mp
      ((KeepFirst.mem_of_mem_keepFirst hi).resolve_left List.not_mem_nil)
    exact (firstOfEach_parse (some policy) f.2 f.1).others i hif

/-! ## The graph -/

/-- The identities and then the events of a reading, added to a fresh graph. -/
def Parsed.ingest (r : Parsed) (privileged : GoString → Bool) : Store :=
  r.events.foldl Store.addEvent (r.identities.foldl Store.addIdentity (Store.new privileged))

/-- **The chain in the graph is that of the first event of the agent.** -/
theorem chainOf_ingest {xs : List (Envelope × Time)} {r : Parsed}
    (h : FirstOfEach B xs r.identities) (privileged : GoString → Bool) (id : GoString) :
    (r.ingest privileged).chainOf id = firstChain xs id := by
  have hbare : ∀ s : Store, s.chainOf id = (s.bare id).onBehalfOf := by
    intro s
    unfold Store.chainOf Store.bare
    cases s.find id <;> rfl
  have hreports : ∀ i ∈ Keyed.reports Identity.id id r.identities,
      i.onBehalfOf = [] ∨ i.onBehalfOf = firstChain xs id := by
    intro i hi
    obtain ⟨hmem, rfl⟩ := Keyed.mem_reports.mp hi
    rcases h.others i hmem with hagent | hnil
    · have hi' : i ∈ r.identities.filter (isAgentNode B i.id) := List.mem_filter.mpr ⟨hmem, hagent⟩
      rw [h.once, h.agents, Option.mem_toList, Option.map_eq_some_iff] at hi'
      obtain ⟨x, hx, hxi⟩ := hi'
      right
      rw [firstChain, hx, ← hxi]
      rfl
    · exact Or.inl hnil
  have hfirst : firstChain xs id ≠ [] → ∃ i ∈ Keyed.reports Identity.id id r.identities,
      i.onBehalfOf = firstChain xs id := by
    intro hne
    cases hx : xs.find? (·.1.agentID == id) with
    | none =>
      rw [firstChain, hx] at hne
      exact absurd rfl hne
    | some x =>
      have hid : x.1.agentID = id := by simpa using List.find?_some hx
      have hnode := h.agents id
      rw [hx] at hnode
      refine ⟨agentIdentity B x.1, Keyed.mem_reports.mpr ⟨List.mem_of_find?_eq_some hnode, hid⟩, ?_⟩
      rw [firstChain, hx]
      rfl
  rw [hbare, Parsed.ingest, Store.bare_addEvents, ← hbare, Store.chainOf, Store.find_addIdentities,
    Store.find_new]
  split_ifs with hnil
  · -- no report of the id, so no event of an agent with a chain
    have hno : firstChain xs id = [] := by
      by_contra hne
      obtain ⟨i, hi, -⟩ := hfirst hne
      rw [hnil] at hi
      exact List.not_mem_nil hi
    rw [hno]
    rfl
  · exact onBehalfOf_foldl_of_mem hreports hfirst rfl

/-! ## Principals kept -/

/-- Every principal of every event is in the chain of its agent. -/
def Kept (xs : List (Envelope × Time)) (s : Store) : Prop :=
  ∀ x ∈ xs, ∀ p ∈ x.1.onBehalfOf, p ∈ s.chainOf x.1.agentID

/-- Every principal of an event is named by the first event of its agent. -/
def Covers (xs : List (Envelope × Time)) : Prop :=
  ∀ x ∈ xs, ∀ p ∈ x.1.onBehalfOf, p ∈ firstChain xs x.1.agentID

variable (B) in
/-- The ways events come in: one blob, or a load of files. `Reading B xs r`: the admitted events are
`xs`, in the order they are read, and `r` is returned. -/
inductive Reading : List (Envelope × Time) → Parsed → Prop
  | blob (data file : GoString) (pol : Option Stream.Policy) :
    Reading (admitted B pol file data) (parse B data file pol)
  | load {fs : FileSystem} {pathOrGlob : GoString} {policy : Stream.Policy}
      {files : List (GoString × GoString)} {r : Parsed} (hfiles : filesOf B fs pathOrGlob = .ok files)
      (hload : loadWith B fs pathOrGlob policy = .ok r) :
    Reading (admittedFiles B policy files) r

theorem Reading.firstOfEach {xs : List (Envelope × Time)} {r : Parsed} (h : Reading B xs r) :
    FirstOfEach B xs r.identities := by
  cases h with
  | blob data file pol => exact firstOfEach_parse pol data file
  | load hfiles hload =>
    rw [loadWith_eq, hfiles] at hload
    obtain rfl := Except.ok.inj hload
    exact firstOfEach_loadFiles _ _

theorem mem_firstChain_iff {xs : List (Envelope × Time)} (h : Covers xs) (id p : GoString) :
    p ∈ firstChain xs id ↔ ∃ x ∈ xs, x.1.agentID = id ∧ p ∈ x.1.onBehalfOf := by
  constructor
  · intro hp
    cases hx : xs.find? (·.1.agentID == id) with
    | none =>
      rw [firstChain, hx] at hp
      exact absurd hp List.not_mem_nil
    | some x =>
      rw [firstChain, hx] at hp
      exact ⟨x, List.mem_of_find?_eq_some hx, by simpa using List.find?_some hx, hp⟩
  · rintro ⟨x, hx, rfl, hp⟩
    exact h x hx p hp

/-- Any two events of one agent name the same principals, whatever their order. -/
def Agreeing (xs : List (Envelope × Time)) : Prop :=
  ∀ x ∈ xs, ∀ y ∈ xs, x.1.agentID = y.1.agentID → ∀ p ∈ x.1.onBehalfOf, p ∈ y.1.onBehalfOf

theorem Agreeing.perm {xs ys : List (Envelope × Time)} (h : Agreeing xs) (hperm : ys.Perm xs) : Agreeing ys :=
  fun x hx y hy => h x (hperm.mem_iff.mp hx) y (hperm.mem_iff.mp hy)

theorem Agreeing.covers {xs : List (Envelope × Time)} (h : Agreeing xs) : Covers xs := by
  intro x hx p hp
  unfold firstChain
  cases hy : xs.find? (·.1.agentID == x.1.agentID) with
  | none => exact absurd (List.find?_eq_none.mp hy x hx) (by simp)
  | some y =>
    have hid : y.1.agentID = x.1.agentID := by simpa using List.find?_some hy
    exact h x hx y (List.mem_of_find?_eq_some hy) hid.symm p hp

/-! ## Other orders -/

/-- The blob of these lines. -/
def rearranged (lines : List GoString) : GoString := Bufio.joinLines lines

theorem newlines_rearranged {data : GoString} {lines : List GoString}
    (hlines : lines.Perm (Bufio.newlines data)) : Bufio.newlines (rearranged lines) = lines := by
  refine Bufio.newlines_joinLines ?_ fun l hl => Bufio.not_mem_newlines (hlines.mem_iff.mp hl)
  rintro rfl
  have hnil : Bufio.newlines data = [] := hlines.symm.eq_nil
  exact List.splitOn_ne_nil 0x0A data hnil

theorem admitted_rearranged {pol : Option Stream.Policy} {file data : GoString} (hfits : Fits data)
    {lines : List GoString} (hlines : lines.Perm (Bufio.newlines data)) :
    admitted B pol file (rearranged lines) = lines.filterMap (admittedLine B pol (Stream.stem file)) ∧
      (admitted B pol file (rearranged lines)).Perm (admitted B pol file data) := by
  have hnew := newlines_rearranged hlines
  have hfits' : Fits (rearranged lines) := by
    unfold Fits
    rw [hnew]
    exact fun l hl => hfits l (hlines.mem_iff.mp hl)
  have hadmitted : admitted B pol file (rearranged lines) =
      lines.filterMap (admittedLine B pol (Stream.stem file)) := by
    rw [admitted, takeWhile_of_fits hfits', hnew]
  refine ⟨hadmitted, ?_⟩
  rw [hadmitted, admitted, takeWhile_of_fits hfits]
  exact hlines.filterMap _

theorem exists_rearranged {pol : Option Stream.Policy} {file data : GoString} (hfits : Fits data)
    {x : Envelope × Time} (hx : x ∈ admitted B pol file data) :
    ∃ lines, lines.Perm (Bufio.newlines data) ∧
      firstChain (admitted B pol file (rearranged lines)) x.1.agentID = x.1.onBehalfOf := by
  have hmem := hx
  rw [admitted, takeWhile_of_fits hfits] at hmem
  obtain ⟨l, hl, hlx⟩ := List.mem_filterMap.mp hmem
  have hperm : (l :: (Bufio.newlines data).erase l).Perm (Bufio.newlines data) := (List.perm_cons_erase hl).symm
  refine ⟨_, hperm, ?_⟩
  rw [(admitted_rearranged hfits hperm).1, List.filterMap_cons_some hlx, firstChain, List.find?_cons]
  simp

variable (B) in
/-- No order of the lines changes whom an agent acts for. -/
def OrderFree (privileged : GoString → Bool) (pol : Option Stream.Policy) (file data : GoString) : Prop :=
  ∀ lines, lines.Perm (Bufio.newlines data) → ∀ id p,
    p ∈ ((parse B (rearranged lines) file pol).ingest privileged).chainOf id ↔
      p ∈ ((parse B data file pol).ingest privileged).chainOf id

/-- **Where no order of the lines changes whom an agent acts for**, the events agree. -/
theorem agreeing_of_rearranged {privileged : GoString → Bool} {pol : Option Stream.Policy}
    {file data : GoString} (hfits : Fits data) (h : OrderFree B privileged pol file data) :
    Agreeing (admitted B pol file data) := by
  intro x hx y hy hid p hp
  obtain ⟨ls, hls, hxfirst⟩ := exists_rearranged hfits hx
  obtain ⟨ms, hms, hyfirst⟩ := exists_rearranged hfits hy
  have hchain : ∀ blob, ((parse B blob file pol).ingest privileged).chainOf x.1.agentID =
      firstChain (admitted B pol file blob) x.1.agentID := fun blob =>
    chainOf_ingest (firstOfEach_parse pol blob file) privileged _
  have hxy := (h ls hls x.1.agentID p).trans (h ms hms x.1.agentID p).symm
  rw [hchain, hchain, hxfirst, hid, hyfirst] at hxy
  exact hxy.mp hp

/-- **Which chains are kept.** No principal is lost exactly when the first event of each agent names them all.
Events that agree lose none in any order, and each agent acts for the same principals in all of them; and of the
orders of a blob's lines, that fit the scanner, that is so only if the events agree. -/
theorem delegation_kept_iff (B : Bus) (privileged : GoString → Bool) :
    (∀ xs r, Reading B xs r → (Kept xs (r.ingest privileged) ↔ Covers xs)) ∧
    (∀ xs r, Reading B xs r → Agreeing xs → ∀ xs' r', Reading B xs' r' → xs'.Perm xs →
      Kept xs' (r'.ingest privileged) ∧ ∀ id p,
        p ∈ (r'.ingest privileged).chainOf id ↔ p ∈ (r.ingest privileged).chainOf id) ∧
    ∀ pol file data, Fits data → (OrderFree B privileged pol file data ↔ Agreeing (admitted B pol file data)) := by
  have hkept : ∀ xs r, Reading B xs r → (Kept xs (r.ingest privileged) ↔ Covers xs) := by
    intro xs r h
    unfold Kept Covers
    simp only [chainOf_ingest h.firstOfEach privileged]
  have hsame : ∀ xs r, Reading B xs r → Agreeing xs → ∀ xs' r', Reading B xs' r' → xs'.Perm xs →
      Kept xs' (r'.ingest privileged) ∧ ∀ id p,
        p ∈ (r'.ingest privileged).chainOf id ↔ p ∈ (r.ingest privileged).chainOf id := by
    intro xs r h hagree xs' r' h' hperm
    have hcovers := (hagree.perm hperm).covers
    refine ⟨(hkept xs' r' h').mpr hcovers, fun id p => ?_⟩
    rw [chainOf_ingest h.firstOfEach privileged, chainOf_ingest h'.firstOfEach privileged,
      mem_firstChain_iff hagree.covers, mem_firstChain_iff hcovers]
    simp only [hperm.mem_iff]
  refine ⟨hkept, hsame, fun pol file data hfits => ⟨agreeing_of_rearranged hfits, ?_⟩⟩
  intro hagree lines hlines
  exact (hsame _ _ (Reading.blob data file pol) hagree _ _ (Reading.blob (rearranged lines) file pol)
    (admitted_rearranged hfits hlines).2).2

/-- Two events of one agent, which name the same principals in different orders. -/
def agreeingStream : List Envelope :=
  [plainEnvelope "tokenfuse" "agent://acme.example/bot"
      ["user://acme.example/ann", "user://acme.example/bob"],
    plainEnvelope "tokenfuse" "agent://acme.example/bot"
      ["user://acme.example/bob", "user://acme.example/ann"]]

/-- The events of a stream of its own file. -/
def admittedOf (envs : List Envelope) (blob : GoString) : List (Envelope × Time) :=
  admitted (busOf envs) (some Stream.Policy.default) "tokenfuse.ndjson" blob

/-- The graph of a stream of its own file. -/
def graphOfBlob (envs : List Envelope) (blob : GoString) : Store :=
  (parse (busOf envs) blob "tokenfuse.ndjson" (some Stream.Policy.default)).ingest fun _ => false

/-- The agreeing events are kept in the order of the blob, and no order of its lines changes for whom the agent
acts. -/
theorem delegation_kept_iff_agreeing :
    Kept (admittedOf agreeingStream (blobOf agreeingStream))
        (graphOfBlob agreeingStream (blobOf agreeingStream)) ∧
      OrderFree (busOf agreeingStream) (fun _ => false) (some Stream.Policy.default) "tokenfuse.ndjson"
        (blobOf agreeingStream) := by
  obtain ⟨hkept, -, hfree⟩ := delegation_kept_iff (busOf agreeingStream) fun _ => false
  have hcovers : Covers (admittedOf agreeingStream (blobOf agreeingStream)) := by
    unfold Covers
    decide +kernel
  have hagree : Agreeing (admittedOf agreeingStream (blobOf agreeingStream)) := by
    unfold Agreeing
    decide +kernel
  have hfits : Fits (blobOf agreeingStream) := by decide +kernel
  exact ⟨(hkept _ _ (Reading.blob (blobOf agreeingStream) "tokenfuse.ndjson" (some Stream.Policy.default))).mpr
    hcovers, (hfree (some Stream.Policy.default) "tokenfuse.ndjson" _ hfits).mpr hagree⟩

/-- An agent that acts on its own, and then on behalf of a user. -/
def chainlessFirst : List Envelope :=
  [plainEnvelope "tokenfuse" "agent://acme.example/bot" [],
    plainEnvelope "tokenfuse" "agent://acme.example/bot" ["user://acme.example/ann"]]

/-- The user is lost, and is not if the lines are the other way round. -/
theorem chain_lost :
    ¬ Kept (admittedOf chainlessFirst (blobOf chainlessFirst))
        (graphOfBlob chainlessFirst (blobOf chainlessFirst)) ∧
      (graphOfBlob chainlessFirst (blobOf chainlessFirst)).chainOf "agent://acme.example/bot" = [] ∧
      (graphOfBlob chainlessFirst (blobOf chainlessFirst.reverse)).chainOf
        "agent://acme.example/bot" = ["user://acme.example/ann"] := by
  have hlost : (graphOfBlob chainlessFirst (blobOf chainlessFirst)).chainOf
      "agent://acme.example/bot" = [] := by
    decide +kernel
  refine ⟨fun h => ?_, hlost, by decide +kernel⟩
  have hmem : (plainEnvelope "tokenfuse" "agent://acme.example/bot" ["user://acme.example/ann"],
      Time.seconds 63919188000) ∈ admittedOf chainlessFirst (blobOf chainlessFirst) := by
    decide +kernel
  have hann := h _ hmem "user://acme.example/ann" List.mem_cons_self
  change _ ∈ (graphOfBlob chainlessFirst (blobOf chainlessFirst)).chainOf
    "agent://acme.example/bot" at hann
  rw [hlost] at hann
  exact List.not_mem_nil hann

end Tokenfuse

end Idryx
