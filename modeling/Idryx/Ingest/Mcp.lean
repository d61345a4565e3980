import Idryx.Graph.Folds
import Idryx.Go.Strings

/-!
# The MCP inventory

`internal/ingest/mcp.go`: the servers of an inventory as identities.

* `mcp`: each server under the id of its name and URL; `isHighRiskTool`;
* `Straddles s t`: the name of `t` reaches to an at sign in the URL of `s`; **`id_eq_iff`**: two servers
  share an id if they have one name and URL, or one straddles the other;
* `owned_graph`: what stands on a node comes from the servers of its id; **`separate_iff`**: an inventory
  keeps its servers apart exactly if none straddles another;
* `not_separate_straddling`: a server outside the registry that lands on one inside it.
-/

namespace Idryx

/-- A server of the inventory. -/
structure McpServer where
  name : GoString
  url : GoString
  owner : GoString
  sanctioned : Option Bool
  tools : List GoString

/-- The registry of sanctioned servers, and the servers observed. -/
structure McpInventory where
  registry : List GoString
  servers : List McpServer

/-- A tool or scope that grants broad or destructive action. -/
def isHighRiskTool (U : Unicode) (tool : GoString) : Bool :=
  let t := Strings.toLower U tool
  (["admin", "delete", "write_all", "exec", "shell", "*"] : List GoString).any (Strings.contains t)

namespace McpInventory

/-- A server is sanctioned by its own word, or else by the registry. -/
def sanctioned (inv : McpInventory) (s : McpServer) : Bool :=
  s.sanctioned.getD (inv.registry.contains s.name)

/-- The id of a server. -/
def id (s : McpServer) : GoString := ("mcp:" : GoString) ++ s.name ++ ("@" : GoString) ++ s.url

/-- The identity of a server. -/
def identity (U : Unicode) (inv : McpInventory) (s : McpServer) : Identity :=
  let permissions := s.tools.map fun tool =>
    { name := tool, admin := isHighRiskTool U tool, used := false, actions := [], arn := "" }
  { Identity.zero (id s) with
    type := identityMCPServer
    source := "mcp"
    owner := s.owner
    shadow := !inv.sanctioned s
    permissions := permissions
    privileged := permissions.any Permission.admin }

/-- `MCP`. -/
def mcp (U : Unicode) (inv : McpInventory) : List Identity := inv.servers.map (inv.identity U)

/-- The graph of an inventory. -/
def graph (U : Unicode) (privileged : GoString → Bool) (inv : McpInventory) : Store :=
  (inv.mcp U).foldl Store.addIdentity (Store.new privileged)

/-! ## When two servers share an id -/

/-- The name of `t` reaches to an at sign in the URL of `s`. -/
def Straddles (s t : McpServer) : Prop :=
  ∃ x, t.name = s.name ++ ("@" : GoString) ++ x ∧ s.url = x ++ ("@" : GoString) ++ t.url

/-- **Two servers share an id** if they have one name and URL, or one's at sign stands in the other's
URL. -/
theorem id_eq_iff {s t : McpServer} :
    id s = id t ↔ (s.name = t.name ∧ s.url = t.url) ∨ Straddles s t ∨ Straddles t s := by
  have hid : ∀ s : McpServer, id s = ("mcp:" : GoString) ++ (s.name ++ 0x40 :: s.url) := by
    intro s
    rw [id, List.append_assoc, List.append_assoc]
    rfl
  have hstr : ∀ s t : McpServer, Straddles s t ↔
      ∃ x, t.name = s.name ++ 0x40 :: x ∧ s.url = x ++ 0x40 :: t.url := by
    intro s t
    unfold Straddles
    simp only [List.append_assoc]
    rfl
  rw [hid, hid, List.append_right_inj, hstr, hstr]
  constructor
  · intro h
    rcases List.append_eq_append_iff.mp h with ⟨x, hname, hurl⟩ | ⟨x, hname, hurl⟩
    · cases x with
      | nil => simp_all
      | cons b x =>
        rw [List.cons_append, List.cons.injEq] at hurl
        obtain ⟨rfl, hurl⟩ := hurl
        exact Or.inr (Or.inl ⟨x, hname, hurl⟩)
    · cases x with
      | nil => simp_all
      | cons b x =>
        rw [List.cons_append, List.cons.injEq] at hurl
        obtain ⟨rfl, hurl⟩ := hurl
        exact Or.inr (Or.inr ⟨x, hname, hurl⟩)
  · rintro (⟨hname, hurl⟩ | ⟨x, hname, hurl⟩ | ⟨x, hname, hurl⟩)
    · rw [hname, hurl]
    · rw [hname, hurl]
      simp
    · rw [hname, hurl]
      simp

/-! ## What lands on a node -/

/-- The flag and the permissions of a node come from the servers of its id. -/
structure Owned (inv : McpInventory) (n : Identity) : Prop where
  shadow : n.shadow = true → ∃ t ∈ inv.servers, id t = n.id ∧ inv.sanctioned t = false
  permissions : ∀ q ∈ n.permissions, ∃ t ∈ inv.servers, id t = n.id ∧ q.name ∈ t.tools

variable {U : Unicode} {inv : McpInventory}

theorem mem_names_mergePermissions {existing inn : List Permission} {name : GoString} :
    (∃ p ∈ mergePermissions existing inn, p.name = name) ↔
      (∃ p ∈ existing, p.name = name) ∨ ∃ p ∈ inn, p.name = name := by
  refine exists_mergePermissions (P := fun p => p.name = name) (fun d p h => ?_) existing inn
  rw [mergePermission_name, h, or_self]

theorem Owned.merge {n : Identity} (hn : Owned inv n) {t : McpServer} (ht : t ∈ inv.servers)
    (hid : id t = n.id) : Owned inv (mergeIdentity n (inv.identity U t)) := by
  constructor
  · intro h
    by_cases hs : inv.sanctioned t = true
    · have hshadow : (mergeIdentity n (inv.identity U t)).shadow = n.shadow := by
        simp [mergeIdentity, identity, hs]
      exact hn.shadow (hshadow ▸ h)
    · exact ⟨t, ht, hid, Bool.eq_false_iff.mpr hs⟩
  · intro q hq
    rcases mem_names_mergePermissions.mp ⟨q, hq, rfl⟩ with ⟨p, hp, hname⟩ | ⟨p, hp, hname⟩
    · rw [← hname]
      exact hn.permissions p hp
    · obtain ⟨tool, htool, rfl⟩ := List.mem_map.mp hp
      exact ⟨t, ht, hid, hname ▸ htool⟩

/-- **What stands on a node comes from the servers of its id.** -/
theorem owned_graph {privileged : GoString → Bool} {j : GoString} {n : Identity}
    (hn : (inv.graph U privileged).find j = some n) : Owned inv n := by
  have hrun : ∀ j n, (inv.graph U privileged).find j = some n → Owned inv n := by
    refine List.foldlRecOn (motive := fun s : Store => ∀ j n, s.find j = some n → Owned inv n) _ _
      (fun j n h => by cases h) fun s hs i hi j n h => ?_
    obtain ⟨t, ht, rfl⟩ := List.mem_map.mp hi
    rw [Store.find_addIdentity] at h
    split_ifs at h with hj
    · rw [← Option.some.inj h]
      cases hf : s.find (inv.identity U t).id with
      | none => exact Owned.merge ⟨fun h => (by cases h), fun q hq => (by cases hq)⟩ ht rfl
      | some m => exact (hs _ m hf).merge ht (Keyed.lookup_key hf).symm
    · exact hs j n h
  exact hrun j n hn

/-- Two servers of one id are one: they have one name and URL. So what stands on the node of a server
comes from servers of its name and URL. -/
def Separate (U : Unicode) (inv : McpInventory) : Prop :=
  (∀ s ∈ inv.servers, ∀ t ∈ inv.servers, (inv.identity U s).id = (inv.identity U t).id →
    s.name = t.name ∧ s.url = t.url) ∧
  ∀ privileged, ∀ s ∈ inv.servers, ∀ n, (inv.graph U privileged).find (inv.identity U s).id = some n →
    (n.shadow = true →
      ∃ t ∈ inv.servers, (t.name = s.name ∧ t.url = s.url) ∧ inv.sanctioned t = false) ∧
    ∀ q ∈ n.permissions,
      ∃ t ∈ inv.servers, (t.name = s.name ∧ t.url = s.url) ∧ q.name ∈ t.tools

/-- **An inventory keeps its servers apart exactly if none straddles another.** -/
theorem separate_iff (U : Unicode) (inv : McpInventory) :
    Separate U inv ↔ ∀ s ∈ inv.servers, ∀ t ∈ inv.servers, ¬ Straddles s t := by
  constructor
  · rintro ⟨hids, -⟩ s hs t ht hst
    have hid : (inv.identity U s).id = (inv.identity U t).id := id_eq_iff.mpr (Or.inr (Or.inl hst))
    obtain ⟨x, hname, -⟩ := hst
    have hlen := congrArg List.length ((hids s hs t ht hid).1.trans hname)
    rw [List.length_append, List.length_append] at hlen
    have hat : ("@" : GoString).length = 1 := by decide
    omega
  · intro h
    have hids : ∀ s ∈ inv.servers, ∀ t ∈ inv.servers, id s = id t → s.name = t.name ∧ s.url = t.url := by
      intro s hs t ht hid
      rcases id_eq_iff.mp hid with hsame | hst | hts
      · exact hsame
      · exact absurd hst (h s hs t ht)
      · exact absurd hts (h t ht s hs)
    refine ⟨hids, fun privileged s hs n hn => ?_⟩
    have hid : n.id = id s := Keyed.lookup_key hn
    have howned := owned_graph hn
    constructor
    · intro hshadow
      obtain ⟨t, ht, htn, hsanctioned⟩ := howned.shadow hshadow
      exact ⟨t, ht, hids t ht s hs (htn.trans hid), hsanctioned⟩
    · intro q hq
      obtain ⟨t, ht, htn, htool⟩ := howned.permissions q hq
      exact ⟨t, ht, hids t ht s hs (htn.trans hid), htool⟩

/-- A server of the registry reached through a user name, and one that is not and spells its name with
an at sign. -/
def straddling : McpInventory where
  registry := ["jira"]
  servers := [⟨"jira", "bot@mcp.internal", "platform", none, ["issue_read"]⟩,
    ⟨"jira@bot", "mcp.internal", "", none, ["shell_exec"]⟩]

/-- The server of the registry is marked as shadow and given the other's tool. -/
theorem not_separate_straddling : ¬ Separate Unicode.basic straddling ∧
    straddling.sanctioned ⟨"jira", "bot@mcp.internal", "platform", none, ["issue_read"]⟩ = true ∧
    ((straddling.graph Unicode.basic fun _ => false).find "mcp:jira@bot@mcp.internal").map
      (fun n => (n.shadow, n.permissions.map Permission.name)) =
        some (true, (["issue_read", "shell_exec"] : List GoString)) := by
  refine ⟨fun h => ?_, by decide, by decide +kernel⟩
  have hids := h.1 ⟨"jira", "bot@mcp.internal", "platform", none, ["issue_read"]⟩ (by simp [straddling])
    ⟨"jira@bot", "mcp.internal", "", none, ["shell_exec"]⟩ (by simp [straddling]) (by decide)
  exact absurd hids.1 (by decide)

end McpInventory

end Idryx
