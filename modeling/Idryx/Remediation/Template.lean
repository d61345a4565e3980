import Idryx.Go.Numerals
import Idryx.Go.Trim
import Idryx.Lib.Quoted
import Idryx.Remediation.Rotation

/-!
# Right-sizing code as it is read

The code of `Generate`, `internal/remediation/remediate.go`, read line by line: as Terraform, for an agent as
YAML, else as plain lines.

* `lineBreaks`: what ends a line; `hcl`, `yaml`: double-quoted literals of the two languages;
* `grantName`, `HasARN`: how a grant goes; `template`: the lines the code is to be read as; `Faithful`, `Safe`;
* `generateAWS_eq` and its siblings: the code is the printed lines of the template;
* **`code_faithful_iff`**: for which identities the code says what is to be revoked and nothing else.
-/

namespace Idryx.Remediation

open Quoted

/-! ## How the code is read -/

/-- What a language makes of what stands behind a backslash, by some weights lighter than it was. -/
structure Escapes where
  unescape : GoString → Option (GoString × GoString)
  weight : UInt8 → ℕ
  lighter : ∀ {s w rest}, unescape s = some (w, rest) →
    (w.map weight).sum + (rest.map weight).sum < weight 0x5C + (s.map weight).sum

/-- What ends a line, in Terraform as in YAML: a line feed, and a carriage return. Where the two stand together they
are taken for two ends, and no line of the template has either. Other control characters end neither a line nor a
literal, allowed or not. -/
def lineBreaks : List UInt8 := [0x0A, 0x0D]

/-- Literals of Terraform, in which two texts open a template. -/
def hcl (E : Escapes) : Literals UInt8 where
  quote := 0x22
  escape := 0x5C
  newline := 0x0A
  breaks := lineBreaks
  openers := [("$\x7b" : GoString), ("%\x7b" : GoString)]
  unescape := E.unescape
  weight := E.weight
  quote_ne_escape := by decide
  newline_mem := by decide
  openers_ne_nil := by decide
  quote_notMem := by decide
  lighter := E.lighter

/-- Double-quoted literals of YAML. -/
def yaml (E : Escapes) : Literals UInt8 where
  quote := 0x22
  escape := 0x5C
  newline := 0x0A
  breaks := lineBreaks
  openers := []
  unescape := E.unescape
  weight := E.weight
  quote_ne_escape := by decide
  newline_mem := by decide
  openers_ne_nil := by decide
  quote_notMem := by decide
  lighter := E.lighter

/-- The literals of the text for a source. -/
def literals (H Y : Escapes) (source : GoString) : Literals UInt8 := if source = "agents" then yaml Y else hcl H

/-! ## What it is to be read as -/

/-- How the removal of a grant is to name it: on AWS by the ARN that it carries, and by its name where it carries
none; elsewhere by its name. -/
def grantName (source : GoString) (p : Permission) : GoString :=
  if source = "aws_iam" ∧ p.arn ≠ "" then p.arn else p.name

/-- The grant carries an ARN, or its name is one: another has none that could be printed. -/
def HasARN (p : Permission) : Prop := p.arn ≠ "" ∨ Strings.hasPrefix p.name "arn:" = true

/-- A line with a literal that is printed as it is to be read. -/
def field (before value : GoString) : Line UInt8 := .quoted before value [] value

/-- A blank line and a resource that is removed. -/
def hclBlock (resource : GoString) (i : ℕ) (fields : List (Line UInt8)) : List (Line UInt8) :=
  .text [] :: .text (resource ++ resName i ++ "\" \x7b") :: (fields ++ [.text "- \x7d"])

/-- The lines for one grant on each platform. -/
def awsBlock (id : Identity) (i : ℕ) (p : Permission) : List (Line UInt8) :=
  hclBlock "- resource \"aws_iam_role_policy_attachment\" \"" i
    [field "-   role       = " (roleName id.id),
      .quoted "-   policy_arn = " (policyARN p) [] (grantName "aws_iam" p)]

/-- The role that is printed. -/
def gcpRole (U : Unicode) (p : Permission) : GoString :=
  if !Strings.hasPrefix p.name "roles/" then ("roles/" : GoString) ++ Strings.toLower U p.name else p.name

@[inherit_doc awsBlock]
def gcpBlock (U : Unicode) (id : Identity) (i : ℕ) (p : Permission) : List (Line UInt8) :=
  hclBlock "- resource \"google_project_iam_member\" \"" i
    [field "-   project = " "my-gcp-project",
      .quoted "-   role    = " (gcpRole U p) [] (grantName "gcp_iam" p),
      field "-   member  = " ("serviceAccount:" ++ Strings.trimPrefix id.id "gcp:")]

@[inherit_doc awsBlock]
def azureBlock (id : Identity) (i : ℕ) (p : Permission) : List (Line UInt8) :=
  hclBlock "- resource \"azurerm_role_assignment\" \"" i
    [field "-   scope                = " "/subscriptions/00000000-0000-0000-0000-000000000000",
      .quoted "-   role_definition_name = " p.name [] (grantName "azure" p),
      field "-   principal_id         = " (beforeAt id.id ++ "-object-id")]

/-- The lines of the text for each source. -/
def awsLines (id : Identity) : List (Line UInt8) :=
  .text "# AWS IAM Least-Privilege Remediation" :: .text "# Revoke unused policy attachments from the IAM role" ::
    (id.unused.mapIdx (awsBlock id)).flatten

@[inherit_doc awsLines]
def gcpLines (U : Unicode) (id : Identity) : List (Line UInt8) :=
  .text "# GCP IAM Least-Privilege Remediation" :: .text "# Remove unused role bindings from the Service Account" ::
    (id.unused.mapIdx (gcpBlock U id)).flatten

@[inherit_doc awsLines]
def azureLines (id : Identity) : List (Line UInt8) :=
  .text "# Azure RBAC Least-Privilege Remediation" ::
    .text "# Revoke unused role assignments from the Service Principal" :: (id.unused.mapIdx (azureBlock id)).flatten

/-- The tools that are kept, and those that are removed. -/
def agentLines (id : Identity) : List (Line UInt8) :=
  .text "# AI Agent MCP Configuration Remediation" ::
    .text "# Revoke unused tools from the agent's tool declaration list" :: .text [] :: .text "  tools:" ::
    ((id.permissions.filter Permission.used).map (fun p => field "    - " p.name) ++
      id.unused.map fun p => .quoted "-   - " p.name [] (grantName "agents" p))

@[inherit_doc awsLines]
def genericLines (id : Identity) : List (Line UInt8) :=
  .text ("# Generic Remediation for " ++ id.id ++ " (" ++ id.source ++ ")") ::
    .text "# Revoke the following unused capabilities:" :: .text [] ::
    id.unused.map fun p => .text ("- " ++ grantName id.source p)

/-- The lines of the code: one removal for each grant that is not used, in order. -/
def template (U : Unicode) (id : Identity) : List (Line UInt8) :=
  if id.source = "aws_iam" then awsLines id
  else if id.source = "gcp_iam" then gcpLines U id
  else if id.source = "azure" then azureLines id
  else if id.source = "agents" then agentLines id
  else genericLines id

/-- The code is read as the lines of the template, and each removal names one grant alone. -/
structure Faithful (H Y : Escapes) (U : Unicode) (id : Identity) (code : GoString) : Prop where
  lines : List.Forall₂ (Line.Reads (literals H Y id.source)) (template U id) (lines (literals H Y id.source) code)
  alone : ∀ p ∈ id.unused, ∀ q ∈ id.permissions, grantName id.source q = grantName id.source p → q = p

/-- Nothing in the text ends a line. -/
def OneLine (s : GoString) : Prop := ∀ b ∈ lineBreaks, b ∉ s

instance (s : GoString) : Decidable (OneLine s) := List.decidableBAll (fun b => b ∉ s) lineBreaks

/-- The condition: every text that is printed between quotes has nothing in it with a meaning there; on AWS every
grant that is not used has an ARN, and no other grant goes by it; on GCP the name is one that is printed as it is;
without quotes no text has a character that ends a line, and the last line does not end in white space. -/
def Safe (H Y : Escapes) (id : Identity) : Prop :=
  if id.source = "aws_iam" then
    Plain (hcl H) (roleName id.id) ∧ (∀ p ∈ id.unused, HasARN p ∧ Plain (hcl H) (grantName "aws_iam" p)) ∧
      ∀ p ∈ id.unused, ∀ q ∈ id.permissions, grantName "aws_iam" q = grantName "aws_iam" p → q = p
  else if id.source = "gcp_iam" then
    Plain (hcl H) ("serviceAccount:" ++ Strings.trimPrefix id.id "gcp:") ∧
      ∀ p ∈ id.unused, Strings.hasPrefix p.name "roles/" = true ∧ Plain (hcl H) p.name
  else if id.source = "azure" then
    Plain (hcl H) (beforeAt id.id ++ "-object-id") ∧ ∀ p ∈ id.unused, Plain (hcl H) p.name
  else if id.source = "agents" then ∀ p ∈ id.permissions, Plain (yaml Y) p.name
  else
    OneLine id.id ∧ OneLine id.source ∧ (∀ p ∈ id.unused, OneLine p.name) ∧
      ∀ p ∈ id.unused.getLast?, Strings.Solid ("- " ++ p.name)

/-! ## The printed lines -/

theorem grantName_of_ne {source : GoString} (h : source ≠ "aws_iam") (p : Permission) : grantName source p = p.name :=
  if_neg fun hsource => h hsource.1

/-- Lines with a line feed behind each. -/
def unlines (lines : List GoString) : GoString := lines.flatMap (· ++ [0x0A])

theorem unlines_cons (line : GoString) (lines : List GoString) :
    unlines (line :: lines) = line ++ 0x0A :: unlines lines := by
  rw [unlines, List.flatMap_cons, List.append_assoc, List.singleton_append]
  rfl

theorem unlines_append (xs ys : List GoString) : unlines (xs ++ ys) = unlines xs ++ unlines ys :=
  List.flatMap_append

theorem join_concat (lines : List GoString) (line : GoString) :
    Strings.join (lines ++ [line]) [0x0A] = unlines lines ++ line := by
  induction lines with
  | nil => simp [Strings.join, unlines]
  | cons x lines ih =>
    have hne : lines ++ [line] ≠ [] := List.append_ne_nil_of_right_ne_nil _ (List.cons_ne_nil _ _)
    obtain ⟨y, ys, hys⟩ := List.exists_cons_of_ne_nil hne
    rw [hys] at ih
    have hrest : [0x0A].intercalate (y :: ys) = unlines lines ++ line := ih
    rw [List.cons_append, hys, Strings.join, List.intercalate_cons_cons, hrest, unlines_cons, List.append_assoc,
      List.append_assoc, List.cons_append, List.nil_append, List.cons_append]

/-- The printed lines. -/
def printed (ls : List (Line UInt8)) : List GoString := ls.map (Line.print 0x22)

theorem printed_append (ls ms : List (Line UInt8)) : printed (ls ++ ms) = printed ls ++ printed ms :=
  List.map_append

theorem printed_concat (ls : List (Line UInt8)) (l : Line UInt8) : printed (ls ++ [l]) = printed ls ++ [l.print 0x22] :=
  List.map_append

theorem solid_of_ends {m : GoString} {b c : UInt8} (hb : Strings.Printable b) (hc : Strings.Printable c)
    (hfirst : m.head? = some b) (hlast : m.getLast? = some c) : Strings.Solid m := by
  intro e he
  have hblank : Strings.Blank e := ⟨[e], fun f hf => List.mem_singleton.mp hf ▸ he, by simp⟩
  have hne := Strings.spaces_nonempty e he
  constructor
  · rintro ⟨z, rfl⟩
    rw [List.head?_append_of_ne_nil _ hne] at hfirst
    exact hblank.not_mem hb (List.mem_of_head? hfirst)
  · rintro ⟨z, rfl⟩
    rw [List.getLast?_append_of_ne_nil _ hne] at hlast
    exact hblank.not_mem hc (List.mem_of_getLast? hlast)

theorem trimSpace_of_solid {m : GoString} (h : Strings.Solid m) : Strings.trimSpace m = m :=
  Strings.trimSpace_eq_iff.mpr ⟨[], [], Strings.blank_nil, Strings.blank_nil, by simp, h⟩

theorem blank_newlines (n : ℕ) : Strings.Blank (List.replicate n 0x0A) := by
  refine ⟨List.replicate n [0x0A], fun e he => ?_, by simp [List.flatten_replicate_singleton]⟩
  rw [List.eq_of_mem_replicate he]
  decide

theorem stanzas_eq {stanza : ℕ → Permission → GoString} {block : ℕ → Permission → List (Line UInt8)}
    (h : ∀ i p, 0x0A :: stanza i p = unlines (printed (block i p)) ++ [0x0A]) (ps : List Permission) :
    0x0A :: stanzas stanza ps = unlines (printed (ps.mapIdx block).flatten) ++ [0x0A] := by
  induction ps generalizing stanza block with
  | nil => rfl
  | cons p ps ih =>
    have htail := @ih (fun i => stanza (i + 1)) (fun i => block (i + 1)) fun i p => h (i + 1) p
    rw [stanzas, List.mapIdx_cons, List.mapIdx_cons, List.flatten_cons, List.flatten_cons, printed_append,
      unlines_append, List.append_assoc, ← htail, ← List.cons_append, h 0 p, List.append_assoc, List.singleton_append]
    rfl

/-- **Code in stanzas**: two lines of comment, and the blocks of the grants. -/
theorem trimSpace_stanzas {stanza : ℕ → Permission → GoString} {block : ℕ → Permission → List (Line UInt8)}
    {first second comment revoke : String} (hfirst : first = comment ++ "\n") (hsecond : second = revoke ++ "\n\n")
    (h : ∀ i p, 0x0A :: stanza i p = unlines (printed (block i p)) ++ [0x0A])
    (hblock : ∀ i p, ∃ resource fields, block i p = hclBlock resource i fields)
    (hcomment : (comment : GoString).head? = some 0x23) {ps : List Permission} (hps : ps ≠ []) :
    Strings.trimSpace ((first : GoString) ++ (second : GoString) ++ stanzas stanza ps) =
      Strings.join (printed (.text comment :: .text revoke :: (ps.mapIdx block).flatten)) [0x0A] := by
  obtain ⟨ls, hls⟩ : ∃ ls, (ps.mapIdx block).flatten = ls ++ [.text "- \x7d"] := by
    obtain ⟨ps, p, rfl⟩ := (List.eq_nil_or_concat ps).resolve_left hps
    obtain ⟨resource, fields, hlast⟩ := hblock ps.length p
    refine ⟨(ps.mapIdx block).flatten ++
      .text [] :: .text (resource ++ resName ps.length ++ "\" \x7b") :: fields, ?_⟩
    rw [List.concat_eq_append, List.mapIdx_concat, List.flatten_concat, hlast, hclBlock]
    simp
  have hjoin : Strings.join (printed (.text comment :: .text revoke :: (ps.mapIdx block).flatten)) [0x0A] =
      unlines (printed (.text comment :: .text revoke :: ls)) ++ "- \x7d" := by
    rw [hls, ← List.cons_append, ← List.cons_append, printed_append]
    exact join_concat _ _
  have hraw : (first : GoString) ++ (second : GoString) ++ stanzas stanza ps =
      Strings.join (printed (.text comment :: .text revoke :: (ps.mapIdx block).flatten)) [0x0A] ++
        List.replicate 2 0x0A := by
    have hlf : ("\n" : GoString) = [0x0A] := rfl
    have hblank : ("\n\n" : GoString) = [0x0A, 0x0A] := rfl
    have hsplit : (first : GoString) ++ (second : GoString) ++ stanzas stanza ps =
        (comment : GoString) ++ 0x0A :: ((revoke : GoString) ++ 0x0A :: 0x0A :: stanzas stanza ps) := by
      rw [hfirst, hsecond, GoString.ofString_append, GoString.ofString_append, hlf, hblank]
      simp
    rw [hsplit, stanzas_eq h, hjoin, hls, printed_append, unlines_append]
    simp [printed, Line.print, unlines]
  have hhash : Strings.Printable 0x23 := by decide
  have hbrace : Strings.Printable 0x7D := by decide
  rw [hraw, Strings.trimSpace_append_blank (blank_newlines 2), hjoin]
  refine trimSpace_of_solid (solid_of_ends hhash hbrace ?_ ?_)
  · rw [printed, List.map_cons, unlines_cons, Line.print, List.append_assoc, List.head?_append, hcomment]
    rfl
  · rw [List.getLast?_append_of_ne_nil _ (by decide)]
    rfl

theorem unlines_hclBlock (resource : GoString) (i : ℕ) (fields : List (Line UInt8)) :
    unlines (printed (hclBlock resource i fields)) ++ [0x0A] = 0x0A :: (resource ++ resName i ++
      ("\" \x7b\n" : GoString) ++ unlines (printed fields) ++ ("- \x7d\n\n" : GoString)) := by
  have hopen : ("\" \x7b\n" : GoString) = ("\" \x7b" : GoString) ++ [0x0A] := rfl
  have hclose : ("- \x7d\n\n" : GoString) = ("- \x7d" : GoString) ++ [0x0A, 0x0A] := rfl
  rw [hopen, hclose]
  simp [hclBlock, printed, Line.print, unlines]

theorem unlines_quoted (before text value : GoString) (ls : List (Line UInt8)) :
    unlines (printed (.quoted before text [] value :: ls)) = before ++ 0x22 :: (text ++ ("\"\n" : GoString)) ++
      unlines (printed ls) := by
  have hquote : ("\"\n" : GoString) = [0x22, 0x0A] := rfl
  rw [hquote]
  simp [printed, Line.print, unlines]

theorem generateAWS_eq {id : Identity} (h : id.unused ≠ []) : generateAWS id id.unused =
    Strings.join (printed (awsLines id)) [0x0A] := by
  have hblock : ∀ i p, ∃ resource fields, awsBlock id i p = hclBlock resource i fields := fun i p => ⟨_, _, rfl⟩
  have hfirst : "# AWS IAM Least-Privilege Remediation\n" = "# AWS IAM Least-Privilege Remediation" ++ "\n" := rfl
  have hsecond : "# Revoke unused policy attachments from the IAM role\n\n" =
      "# Revoke unused policy attachments from the IAM role" ++ "\n\n" := rfl
  refine trimSpace_stanzas hfirst hsecond (fun i p => ?_) hblock (by decide) h
  have hrole : ("-   role       = \"" : GoString) = ("-   role       = " : GoString) ++ [0x22] := rfl
  have harn : ("-   policy_arn = \"" : GoString) = ("-   policy_arn = " : GoString) ++ [0x22] := rfl
  rw [awsBlock, unlines_hclBlock, field, unlines_quoted, unlines_quoted, hrole, harn]
  simp [printed, unlines]

theorem generateGCP_eq (U : Unicode) {id : Identity} (h : id.unused ≠ []) : generateGCP U id id.unused =
    Strings.join (printed (gcpLines U id)) [0x0A] := by
  have hblock : ∀ i p, ∃ resource fields, gcpBlock U id i p = hclBlock resource i fields := fun i p => ⟨_, _, rfl⟩
  have hfirst : "# GCP IAM Least-Privilege Remediation\n" = "# GCP IAM Least-Privilege Remediation" ++ "\n" := rfl
  have hsecond : "# Remove unused role bindings from the Service Account\n\n" =
      "# Remove unused role bindings from the Service Account" ++ "\n\n" := rfl
  refine trimSpace_stanzas hfirst hsecond (fun i p => ?_) hblock (by decide) h
  have hproject : ("-   project = \"my-gcp-project\"\n" : GoString) =
      ("-   project = " : GoString) ++ 0x22 :: (("my-gcp-project" : GoString) ++ ("\"\n" : GoString)) := by
    decide
  have hrole : ("-   role    = \"" : GoString) = ("-   role    = " : GoString) ++ [0x22] := rfl
  have hmember : ("-   member  = \"serviceAccount:" : GoString) =
      ("-   member  = " : GoString) ++ 0x22 :: ("serviceAccount:" : GoString) := by decide
  rw [gcpBlock, unlines_hclBlock, field, field, unlines_quoted, unlines_quoted, unlines_quoted, hproject, hrole,
    hmember]
  simp [printed, unlines, gcpRole]

theorem generateAzure_eq {id : Identity} (h : id.unused ≠ []) : generateAzure id id.unused =
    Strings.join (printed (azureLines id)) [0x0A] := by
  have hblock : ∀ i p, ∃ resource fields, azureBlock id i p = hclBlock resource i fields := fun i p => ⟨_, _, rfl⟩
  have hfirst : "# Azure RBAC Least-Privilege Remediation\n" = "# Azure RBAC Least-Privilege Remediation" ++ "\n" := rfl
  have hsecond : "# Revoke unused role assignments from the Service Principal\n\n" =
      "# Revoke unused role assignments from the Service Principal" ++ "\n\n" := rfl
  refine trimSpace_stanzas hfirst hsecond (fun i p => ?_) hblock (by decide) h
  have hscope : ("-   scope                = \"/subscriptions/00000000-0000-0000-0000-000000000000\"\n" : GoString) =
      ("-   scope                = " : GoString) ++ 0x22 ::
        (("/subscriptions/00000000-0000-0000-0000-000000000000" : GoString) ++ ("\"\n" : GoString)) := by
    decide
  have hrole : ("-   role_definition_name = \"" : GoString) =
      ("-   role_definition_name = " : GoString) ++ [0x22] := rfl
  have hprincipal : ("-   principal_id         = \"" : GoString) =
      ("-   principal_id         = " : GoString) ++ [0x22] := rfl
  have hobject : ("-object-id\"\n" : GoString) = ("-object-id" : GoString) ++ ("\"\n" : GoString) := rfl
  rw [azureBlock, unlines_hclBlock, field, field, unlines_quoted, unlines_quoted, unlines_quoted, hscope, hrole,
    hprincipal, hobject]
  simp [printed, unlines]
  rfl

theorem trimSpace_unlines {lines : List GoString} (h : lines ≠ []) :
    Strings.trimSpace (unlines lines) = Strings.trimSpace (Strings.join lines [0x0A]) := by
  obtain ⟨ls, line, rfl⟩ := (List.eq_nil_or_concat lines).resolve_left h
  have hraw : unlines (ls ++ [line]) = unlines ls ++ line ++ List.replicate 1 0x0A := by simp [unlines]
  rw [List.concat_eq_append, hraw, Strings.trimSpace_append_blank (blank_newlines 1), join_concat]

theorem head_join {line : GoString} (h : line ≠ []) (lines : List GoString) :
    (Strings.join (line :: lines) [0x0A]).head? = line.head? := by
  cases lines with
  | nil => rw [Strings.join, List.intercalate_singleton]
  | cons x lines =>
    rw [Strings.join, List.intercalate_cons_cons, List.append_assoc, List.head?_append_of_ne_nil _ h]

theorem getLast_join (lines : List GoString) {line : GoString} (h : line ≠ []) :
    (Strings.join (lines ++ [line]) [0x0A]).getLast? = line.getLast? := by
  rw [join_concat, List.getLast?_append_of_ne_nil _ h]

theorem flatMap_eq_unlines {print : Permission → GoString} {line : Permission → Line UInt8}
    (h : ∀ p, print p = (line p).print 0x22 ++ [0x0A]) (ps : List Permission) :
    ps.flatMap print = unlines (printed (ps.map line)) := by
  rw [unlines, printed, List.flatMap_map, List.flatMap_map]
  exact List.flatMap_congr fun p _ => h p

theorem generateAgent_eq {id : Identity} (h : id.unused ≠ []) : generateAgent id id.unused =
    Strings.join (printed (agentLines id)) [0x0A] := by
  have hclose : ("\"\n" : GoString) = [0x22, 0x0A] := rfl
  have hkept (p : Permission) : keptTool p = (field "    - " p.name).print 0x22 ++ [0x0A] := by
    have hopen : ("    - \"" : GoString) = ("    - " : GoString) ++ [0x22] := rfl
    simp [keptTool, field, Line.print, hopen, hclose]
  have hrevoked (p : Permission) : revokedTool p =
      (Line.quoted "-   - " p.name [] (grantName "agents" p)).print 0x22 ++ [0x0A] := by
    have hopen : ("-   - \"" : GoString) = ("-   - " : GoString) ++ [0x22] := rfl
    simp [revokedTool, Line.print, hopen, hclose]
  have hhead : ("# AI Agent MCP Configuration Remediation\n" : GoString) ++
      ("# Revoke unused tools from the agent's tool declaration list\n\n" : GoString) ++ ("  tools:\n" : GoString) =
      unlines (printed [.text "# AI Agent MCP Configuration Remediation",
        .text "# Revoke unused tools from the agent's tool declaration list", .text [], .text "  tools:"]) := by
    decide
  have hraw : generateAgent id id.unused = Strings.trimSpace (unlines (printed (agentLines id))) := by
    rw [generateAgent, flatMap_eq_unlines hkept, flatMap_eq_unlines hrevoked, hhead, ← unlines_append,
      ← printed_append, ← unlines_append, ← printed_append, List.append_assoc]
    rfl
  obtain ⟨p, ls, hlines⟩ : ∃ p, [.quoted "-   - " p.name [] (grantName "agents" p)] <:+ agentLines id := by
    obtain ⟨ps, p, hlast⟩ := (List.eq_nil_or_concat id.unused).resolve_left h
    have hrevoked : [.quoted "-   - " p.name [] (grantName "agents" p)] <:+
        id.unused.map fun p => Line.quoted "-   - " p.name [] (grantName "agents" p) := by
      rw [hlast, List.concat_eq_append, List.map_append]
      exact List.suffix_append _ _
    exact ⟨p, (hrevoked.trans (List.suffix_append _ _)).trans ⟨[_, _, _, _], rfl⟩⟩
  have hhash : Strings.Printable 0x23 := by decide
  have hquote : Strings.Printable 0x22 := by decide
  have hprint : (Line.quoted "-   - " p.name [] (grantName "agents" p)).print 0x22 =
      ("-   - " : GoString) ++ 0x22 :: p.name ++ [0x22] := by simp [Line.print]
  have hlast : (Strings.join (printed (agentLines id)) [0x0A]).getLast? = some 0x22 := by
    rw [← hlines, printed_concat, hprint]
    refine (getLast_join _ (List.append_ne_nil_of_right_ne_nil _ (List.cons_ne_nil _ _))).trans ?_
    exact List.getLast?_concat
  have hne : printed (agentLines id) ≠ [] := List.cons_ne_nil _ _
  rw [hraw, trimSpace_unlines hne]
  exact trimSpace_of_solid (solid_of_ends hhash hquote (head_join (by decide) _) hlast)

theorem generateGeneric_eq {id : Identity} (hsource : id.source ≠ "aws_iam") : generateGeneric id id.unused =
    Strings.trimSpace (Strings.join (printed (genericLines id)) [0x0A]) := by
  have hline (p : Permission) : revokedLine p =
      (Line.text (("- " : GoString) ++ grantName id.source p)).print 0x22 ++ [0x0A] := by
    rw [grantName_of_ne hsource]
    rfl
  have hcomment : (")\n" : GoString) = (")" : GoString) ++ [0x0A] := rfl
  have hrevoke : ("# Revoke the following unused capabilities:\n\n" : GoString) =
      ("# Revoke the following unused capabilities:" : GoString) ++ [0x0A, 0x0A] := rfl
  have hne : printed (genericLines id) ≠ [] := List.cons_ne_nil _ _
  rw [← trimSpace_unlines hne, generateGeneric, flatMap_eq_unlines hline, hcomment, hrevoke]
  congr 1
  simp [genericLines, printed, Line.print, unlines]

/-! ## Clean lines -/

variable {H Y : Escapes} {U : Unicode} {id : Identity}

theorem oneLine_append {s t : GoString} (hs : OneLine s) (ht : OneLine t) : OneLine (s ++ t) := fun b hb hmem =>
  (List.mem_append.mp hmem).elim (hs b hb) (ht b hb)

theorem oneLine_append_iff {s t : GoString} : OneLine (s ++ t) ↔ OneLine s ∧ OneLine t :=
  ⟨fun h => ⟨fun b hb hmem => h b hb (List.mem_append_left t hmem), fun b hb hmem =>
    h b hb (List.mem_append_right s hmem)⟩, fun h => oneLine_append h.1 h.2⟩

theorem oneLine_nil : OneLine [] := fun _ _ => List.not_mem_nil

theorem oneLine_resName (i : ℕ) : OneLine (resName i) := by
  have hname : OneLine ("revoke_unused_" : GoString) := by decide
  refine oneLine_append hname fun b hb hmem => ?_
  obtain ⟨hlo, -⟩ := Strconv.digit_of_mem_itoa hmem
  have hlow : ∀ b ∈ lineBreaks, ¬ (0x30 : ℕ) ≤ b.toNat := forall_mem_of_all (by decide)
  exact hlow b hb hlo

theorem quote_notMem_breaks : (0x22 : UInt8) ∉ lineBreaks := by decide

theorem clean_field_iff {before value : GoString} (h : OneLine before) :
    (Line.quoted before value [] value).Clean (hcl H) ↔ Plain (hcl H) value :=
  Line.clean_quoted_iff quote_notMem_breaks h oneLine_nil

theorem plain_hcl_of_forall {s : GoString} (h : ∀ b ∈ s, b ≠ 0x22 ∧ b ≠ 0x5C ∧ b ∉ lineBreaks ∧ b ≠ 0x7B) :
    Plain (hcl H) s := by
  refine ⟨fun hb => (h _ hb).1 rfl, fun hb => (h _ hb).2.1 rfl, fun b hb hmem => (h _ hmem).2.2.1 hb,
    fun m hm hopens => ?_⟩
  have hbrace : ∀ m ∈ (hcl H).openers, (0x7B : UInt8) ∈ m := by
    change ∀ m ∈ [("$\x7b" : GoString), ("%\x7b" : GoString)], (0x7B : UInt8) ∈ m
    decide
  exact (h _ (hopens.subset (hbrace m hm))).2.2.2 rfl

theorem clean_hclBlock_iff {resource : GoString} (h : OneLine resource) (i : ℕ) (fields : List (Line UInt8)) :
    (∀ l ∈ hclBlock resource i fields, l.Clean (hcl H)) ↔ ∀ l ∈ fields, l.Clean (hcl H) := by
  have hbrace : OneLine ("\" \x7b" : GoString) := by decide
  have hopen : OneLine (resource ++ resName i ++ ("\" \x7b" : GoString)) :=
    oneLine_append (oneLine_append h (oneLine_resName i)) hbrace
  have hclose : OneLine ("- \x7d" : GoString) := by decide
  rw [hclBlock, List.forall_mem_cons, List.forall_mem_cons, List.forall_mem_append, List.forall_mem_singleton]
  constructor
  · exact fun h => h.2.2.1
  · exact fun h => ⟨oneLine_nil, hopen, h, hclose⟩

theorem forall_mem_blocks {P : Line UInt8 → Prop} {block : ℕ → Permission → List (Line UInt8)} {Q : Permission → Prop}
    (h : ∀ i p, (∀ l ∈ block i p, P l) ↔ Q p) (ps : List Permission) :
    (∀ l ∈ (ps.mapIdx block).flatten, P l) ↔ ∀ p ∈ ps, Q p := by
  induction ps generalizing block with
  | nil => simp
  | cons p ps ih =>
    rw [List.mapIdx_cons, List.flatten_cons, List.forall_mem_append, List.forall_mem_cons, h 0 p,
      ih fun i p => h (i + 1) p]

theorem clean_policyARN_iff (p : Permission) {before : GoString} (hbefore : OneLine before) :
    (Line.quoted before (policyARN p) [] (grantName "aws_iam" p)).Clean (hcl H) ↔
      HasARN p ∧ Plain (hcl H) (grantName "aws_iam" p) := by
  by_cases h : HasARN p
  · have harn : policyARN p = grantName "aws_iam" p := by
      unfold policyARN grantName
      by_cases hnil : p.arn = ""
      · have hprefix := h.resolve_left fun hne => hne hnil
        have hname : ¬ (("aws_iam" : GoString) = "aws_iam" ∧ p.arn ≠ "") := fun hne => hne.2 hnil
        rw [if_pos hnil, if_neg hname, hprefix]
        rfl
      · rw [if_neg hnil, if_pos ⟨rfl, hnil⟩]
    rw [harn, clean_field_iff hbefore, and_iff_right h]
  · refine iff_of_false (fun hclean => h ?_) fun hsafe => h hsafe.1
    obtain ⟨hnil, hprefix⟩ := not_or.mp h
    rw [not_not] at hnil
    have harn : policyARN p = ("arn:" : GoString) ++ (("aws:iam::aws:policy/" : GoString) ++ p.name) := by
      simp [policyARN, hnil, hprefix]
      rfl
    have hname : grantName "aws_iam" p = p.name := if_neg fun hne => hne.2 hnil
    have hreads := hclean.2
    have hplain : ∀ c ∈ ("arn:" : GoString), c ≠ 0x22 ∧ c ≠ 0x5C := forall_mem_of_all (by decide)
    rw [harn, hname, List.append_assoc] at hreads
    exact Or.inr (List.isPrefixOf_iff_prefix.mpr (hreads.isPrefix hplain))

theorem clean_awsLines_iff (hunused : id.unused ≠ []) : (∀ l ∈ awsLines id, l.Clean (hcl H)) ↔
    Plain (hcl H) (roleName id.id) ∧ ∀ p ∈ id.unused, HasARN p ∧ Plain (hcl H) (grantName "aws_iam" p) := by
  have hcomment : OneLine ("# AWS IAM Least-Privilege Remediation" : GoString) := by decide
  have hrevoke : OneLine ("# Revoke unused policy attachments from the IAM role" : GoString) := by decide
  have hblock (i : ℕ) (p : Permission) : (∀ l ∈ awsBlock id i p, l.Clean (hcl H)) ↔
      Plain (hcl H) (roleName id.id) ∧ HasARN p ∧ Plain (hcl H) (grantName "aws_iam" p) := by
    rw [awsBlock, clean_hclBlock_iff (by decide), List.forall_mem_cons, List.forall_mem_singleton, field,
      clean_field_iff (by decide), clean_policyARN_iff p (by decide)]
  obtain ⟨p, hp⟩ := List.exists_mem_of_ne_nil _ hunused
  rw [awsLines, List.forall_mem_cons, List.forall_mem_cons, forall_mem_blocks hblock]
  constructor
  · exact fun h => ⟨(h.2.2 p hp).1, fun q hq => (h.2.2 q hq).2⟩
  · exact fun h => ⟨hcomment, hrevoke, fun q hq => ⟨h.1, h.2 q hq⟩⟩

theorem clean_gcpRole_iff (p : Permission) {before : GoString} (hbefore : OneLine before) :
    (Line.quoted before (gcpRole U p) [] (grantName "gcp_iam" p)).Clean (hcl H) ↔
      Strings.hasPrefix p.name "roles/" = true ∧ Plain (hcl H) p.name := by
  rw [grantName_of_ne (by decide)]
  by_cases h : Strings.hasPrefix p.name "roles/" = true
  · have hrole : gcpRole U p = p.name := by simp [gcpRole, h]
    rw [hrole, clean_field_iff hbefore, and_iff_right h]
  · refine iff_of_false (fun hclean => h ?_) fun hsafe => h hsafe.1
    have hrole : gcpRole U p = ("roles/" : GoString) ++ Strings.toLower U p.name := by simp [gcpRole, h]
    have hreads := hclean.2
    have hplain : ∀ c ∈ ("roles/" : GoString), c ≠ 0x22 ∧ c ≠ 0x5C := forall_mem_of_all (by decide)
    rw [hrole, List.append_assoc] at hreads
    exact List.isPrefixOf_iff_prefix.mpr (hreads.isPrefix hplain)

theorem clean_gcpLines_iff (hunused : id.unused ≠ []) : (∀ l ∈ gcpLines U id, l.Clean (hcl H)) ↔
    Plain (hcl H) ("serviceAccount:" ++ Strings.trimPrefix id.id "gcp:") ∧
      ∀ p ∈ id.unused, Strings.hasPrefix p.name "roles/" = true ∧ Plain (hcl H) p.name := by
  have hcomment : OneLine ("# GCP IAM Least-Privilege Remediation" : GoString) := by decide
  have hrevoke : OneLine ("# Remove unused role bindings from the Service Account" : GoString) := by decide
  have hproject : Plain (hcl H) ("my-gcp-project" : GoString) := plain_hcl_of_forall (forall_mem_of_all (by decide))
  have hblock (i : ℕ) (p : Permission) : (∀ l ∈ gcpBlock U id i p, l.Clean (hcl H)) ↔
      (Strings.hasPrefix p.name "roles/" = true ∧ Plain (hcl H) p.name) ∧
        Plain (hcl H) ("serviceAccount:" ++ Strings.trimPrefix id.id "gcp:") := by
    rw [gcpBlock, clean_hclBlock_iff (by decide), List.forall_mem_cons, List.forall_mem_cons, List.forall_mem_singleton,
      field, field, clean_field_iff (by decide), clean_field_iff (by decide), clean_gcpRole_iff p (by decide),
      and_iff_right hproject]
  obtain ⟨p, hp⟩ := List.exists_mem_of_ne_nil _ hunused
  rw [gcpLines, List.forall_mem_cons, List.forall_mem_cons, forall_mem_blocks hblock]
  constructor
  · exact fun h => ⟨(h.2.2 p hp).2, fun q hq => (h.2.2 q hq).1⟩
  · exact fun h => ⟨hcomment, hrevoke, fun q hq => ⟨h.2 q hq, h.1⟩⟩

theorem clean_azureLines_iff (hunused : id.unused ≠ []) : (∀ l ∈ azureLines id, l.Clean (hcl H)) ↔
    Plain (hcl H) (beforeAt id.id ++ "-object-id") ∧ ∀ p ∈ id.unused, Plain (hcl H) p.name := by
  have hcomment : OneLine ("# Azure RBAC Least-Privilege Remediation" : GoString) := by decide
  have hrevoke : OneLine ("# Revoke unused role assignments from the Service Principal" : GoString) := by decide
  have hscope : Plain (hcl H) ("/subscriptions/00000000-0000-0000-0000-000000000000" : GoString) :=
    plain_hcl_of_forall (forall_mem_of_all (by decide))
  have hblock (i : ℕ) (p : Permission) : (∀ l ∈ azureBlock id i p, l.Clean (hcl H)) ↔
      Plain (hcl H) p.name ∧ Plain (hcl H) (beforeAt id.id ++ "-object-id") := by
    rw [azureBlock, clean_hclBlock_iff (by decide), List.forall_mem_cons, List.forall_mem_cons,
      List.forall_mem_singleton, grantName_of_ne (by decide), field, field, clean_field_iff (by decide),
      clean_field_iff (by decide), clean_field_iff (by decide), and_iff_right hscope]
  obtain ⟨p, hp⟩ := List.exists_mem_of_ne_nil _ hunused
  rw [azureLines, List.forall_mem_cons, List.forall_mem_cons, forall_mem_blocks hblock]
  constructor
  · exact fun h => ⟨(h.2.2 p hp).2, fun q hq => (h.2.2 q hq).1⟩
  · exact fun h => ⟨hcomment, hrevoke, fun q hq => ⟨h.2 q hq, h.1⟩⟩

theorem clean_agentLines_iff : (∀ l ∈ agentLines id, l.Clean (yaml Y)) ↔ ∀ p ∈ id.permissions, Plain (yaml Y) p.name := by
  have hhead : ∀ t ∈ [("# AI Agent MCP Configuration Remediation" : GoString),
      "# Revoke unused tools from the agent's tool declaration list", [], "  tools:"],
      (Line.text t).Clean (yaml Y) := by
    change ∀ t ∈ _, OneLine t
    decide
  have hkeep : OneLine ("    - " : GoString) := by decide
  have hremove : OneLine ("-   - " : GoString) := by decide
  have hkept (p : Permission) : (field "    - " p.name).Clean (yaml Y) ↔ Plain (yaml Y) p.name :=
    Line.clean_quoted_iff quote_notMem_breaks hkeep oneLine_nil
  have hrevoked (p : Permission) : (Line.quoted "-   - " p.name [] (grantName "agents" p)).Clean (yaml Y) ↔
      Plain (yaml Y) p.name := by
    rw [grantName_of_ne (by decide)]
    exact Line.clean_quoted_iff quote_notMem_breaks hremove oneLine_nil
  have hlines : agentLines id = ([("# AI Agent MCP Configuration Remediation" : GoString),
      "# Revoke unused tools from the agent's tool declaration list", [], "  tools:"].map Line.text) ++
      ((id.permissions.filter Permission.used).map (fun p => field "    - " p.name) ++
        id.unused.map fun p => .quoted "-   - " p.name [] (grantName "agents" p)) := rfl
  rw [hlines, List.forall_mem_append, List.forall_mem_append, List.forall_mem_map, List.forall_mem_map,
    List.forall_mem_map]
  simp only [hkept, hrevoked]
  constructor
  · rintro ⟨-, hused, hunused⟩ p hp
    cases h : p.used with
    | true => exact hused p (List.mem_filter.mpr ⟨hp, h⟩)
    | false => exact hunused p (List.mem_filter.mpr ⟨hp, by rw [h]; rfl⟩)
  · intro h
    exact ⟨hhead, fun p hp => h p (List.mem_of_mem_filter hp), fun p hp => h p (List.mem_of_mem_filter hp)⟩

theorem clean_genericLines_iff (hsource : id.source ≠ "aws_iam") {L : Literals UInt8} (hL : L.breaks = lineBreaks) :
    (∀ l ∈ genericLines id, l.Clean L) ↔ OneLine id.id ∧ OneLine id.source ∧ ∀ p ∈ id.unused, OneLine p.name := by
  have hfor : OneLine ("# Generic Remediation for " : GoString) := by decide
  have hopen : OneLine (" (" : GoString) := by decide
  have hclose : OneLine (")" : GoString) := by decide
  have hrevoke : OneLine ("# Revoke the following unused capabilities:" : GoString) := by decide
  have hdash : OneLine ("- " : GoString) := by decide
  have hclean (t : GoString) : (Line.text t).Clean L ↔ OneLine t := by
    rw [Line.Clean, hL]
    rfl
  rw [genericLines, List.forall_mem_cons, List.forall_mem_cons, List.forall_mem_cons, List.forall_mem_map]
  simp only [hclean, grantName_of_ne hsource, oneLine_append_iff, hfor, hopen, hclose, hrevoke, hdash, oneLine_nil,
    and_true, true_and, and_assoc]

/-! ## The last line -/

theorem solid_append_iff {u line : GoString} {b c : UInt8} (hb : Strings.Printable b) (hc : Strings.Printable c)
    (hu : u.head? = some b) (hline : line.head? = some c) : Strings.Solid (u ++ line) ↔ Strings.Solid line := by
  have hne : u ≠ [] := by
    rintro rfl
    cases hu
  have hstart {b : UInt8} (hb : Strings.Printable b) {s e : GoString} (hs : s.head? = some b)
      (he : e ∈ Strings.spaces) : ¬ e <+: s := by
    rintro ⟨z, rfl⟩
    rw [List.head?_append_of_ne_nil _ (Strings.spaces_nonempty e he)] at hs
    have hblank : Strings.Blank e := ⟨[e], fun f hf => List.mem_singleton.mp hf ▸ he, by simp⟩
    exact hblank.not_mem hb (List.mem_of_head? hs)
  constructor
  · exact fun h e he => ⟨hstart hc hline he, fun hs => (h e he).2 (hs.trans (List.suffix_append u line))⟩
  · intro h e he
    refine ⟨hstart hb (by rw [List.head?_append_of_ne_nil _ hne, hu]) he, fun hs => ?_⟩
    rcases List.suffix_or_suffix_of_suffix hs (List.suffix_append u line) with hs | hs
    · exact (h e he).2 hs
    · have hblank : Strings.Blank e := ⟨[e], fun f hf => List.mem_singleton.mp hf ▸ he, by simp⟩
      exact hblank.not_mem hc (hs.subset (List.mem_of_head? hline))

theorem solid_genericLines_iff (hsource : id.source ≠ "aws_iam") (hunused : id.unused ≠ []) :
    Strings.Solid (Strings.join (printed (genericLines id)) [0x0A]) ↔
      ∀ p ∈ id.unused.getLast?, Strings.Solid ("- " ++ p.name) := by
  obtain ⟨ps, p, hlast⟩ := (List.eq_nil_or_concat id.unused).resolve_left hunused
  have hlines : genericLines id = (.text ("# Generic Remediation for " ++ id.id ++ " (" ++ id.source ++ ")") ::
      .text "# Revoke the following unused capabilities:" :: .text [] ::
      ps.map fun p => .text ("- " ++ grantName id.source p)) ++ [.text ("- " ++ p.name)] := by
    rw [genericLines, hlast, List.concat_eq_append, List.map_append, List.map_singleton, grantName_of_ne hsource p]
    rfl
  have hhash : Strings.Printable 0x23 := by decide
  have hdash : Strings.Printable 0x2D := by decide
  have hjoin : Strings.join (printed (genericLines id)) [0x0A] =
      unlines (printed (.text ("# Generic Remediation for " ++ id.id ++ " (" ++ id.source ++ ")") ::
        .text "# Revoke the following unused capabilities:" :: .text [] ::
        ps.map fun p => .text ("- " ++ grantName id.source p))) ++ (("- " : GoString) ++ p.name) := by
    rw [hlines, printed_concat, join_concat]
    rfl
  rw [hjoin, solid_append_iff hhash hdash rfl rfl, hlast, List.concat_eq_append, List.getLast?_concat]
  simp

/-! ## Which code is faithful -/

theorem faithful_iff {code : GoString} : Faithful H Y U id code ↔
    List.Forall₂ (Line.Reads (literals H Y id.source)) (template U id) (lines (literals H Y id.source) code) ∧
      ∀ p ∈ id.unused, ∀ q ∈ id.permissions, grantName id.source q = grantName id.source p → q = p :=
  ⟨fun h => ⟨h.lines, h.alone⟩, fun h => ⟨h.1, h.2⟩⟩

theorem alone_of_nodup (hnames : (id.permissions.map Permission.name).Nodup) (hsource : id.source ≠ "aws_iam") :
    ∀ p ∈ id.unused, ∀ q ∈ id.permissions, grantName id.source q = grantName id.source p → q = p := by
  intro p hp q hq heq
  rw [grantName_of_ne hsource, grantName_of_ne hsource] at heq
  exact List.inj_on_of_nodup_map hnames hq (List.mem_of_mem_filter hp) heq

theorem reads_texts {L : Literals UInt8} {ls : List (Line UInt8)} (hls : ∀ l ∈ ls, ∃ t, l = .text t) {xs : List GoString}
    (h : List.Forall₂ (Line.Reads L) ls xs) : xs = printed ls := by
  induction h with
  | nil => rfl
  | @cons l x ls xs hl _ ih =>
    rw [List.forall_mem_cons] at hls
    obtain ⟨t, rfl⟩ := hls.1
    have hx : x = t := hl
    rw [ih hls.2, hx]
    rfl

theorem lines_reads_iff {L : Literals UInt8} (hL : L.newline = 0x0A) (hquote : L.quote = 0x22) {ls : List (Line UInt8)}
    (hne : ls ≠ []) : List.Forall₂ (Line.Reads L) ls (lines L (Strings.join (printed ls) [0x0A])) ↔
      ∀ l ∈ ls, l.Clean L := by
  have h := forall₂_reads_iff (L := L) hne
  rw [hL, hquote] at h
  exact h

theorem generic_lines_iff {L : Literals UInt8} (hL : L.newline = 0x0A) (hquote : L.quote = 0x22)
    (hbreaks : L.breaks = lineBreaks) (hsource : id.source ≠ "aws_iam") (hunused : id.unused ≠ []) :
    List.Forall₂ (Line.Reads L) (genericLines id) (lines L (generateGeneric id id.unused)) ↔
      OneLine id.id ∧ OneLine id.source ∧ (∀ p ∈ id.unused, OneLine p.name) ∧
        ∀ p ∈ id.unused.getLast?, Strings.Solid ("- " ++ p.name) := by
  have htexts : ∀ l ∈ genericLines id, ∃ t, l = .text t := by
    intro l hl
    rw [genericLines, List.mem_cons, List.mem_cons, List.mem_cons, List.mem_map] at hl
    rcases hl with rfl | rfl | rfl | ⟨p, -, rfl⟩ <;> exact ⟨_, rfl⟩
  have hne : genericLines id ≠ [] := List.cons_ne_nil _ _
  have hlines := lines_reads_iff hL hquote hne
  have hsafe : (OneLine id.id ∧ OneLine id.source ∧ (∀ p ∈ id.unused, OneLine p.name) ∧
      ∀ p ∈ id.unused.getLast?, Strings.Solid ("- " ++ p.name)) ↔
      (∀ l ∈ genericLines id, l.Clean L) ∧ Strings.Solid (Strings.join (printed (genericLines id)) [0x0A]) := by
    rw [clean_genericLines_iff hsource hbreaks, solid_genericLines_iff hsource hunused, and_assoc, and_assoc]
  rw [generateGeneric_eq hsource, hsafe]
  constructor
  · intro h
    obtain ⟨w, w', -, -, htrim, hsolid⟩ := Strings.trimSpace_spec (Strings.join (printed (genericLines id)) [0x0A])
    have hsub : Strings.trimSpace (Strings.join (printed (genericLines id)) [0x0A]) ⊆
        [L.newline].intercalate (printed (genericLines id)) := by
      intro c hc
      have hmem : c ∈ w ++ Strings.trimSpace (Strings.join (printed (genericLines id)) [0x0A]) ++ w' :=
        List.mem_append_left w' (List.mem_append_right w hc)
      rw [← htrim] at hmem
      rw [hL]
      exact hmem
    have hall : Strings.trimSpace (Strings.join (printed (genericLines id)) [0x0A]) =
        Strings.join (printed (genericLines id)) [0x0A] := by
      have hjoin := eq_intercalate_of_lines hsub (reads_texts htexts h)
      rw [hL] at hjoin
      exact hjoin
    rw [hall] at h hsolid
    exact ⟨hlines.mp h, hsolid⟩
  · rintro ⟨hclean, hsolid⟩
    rw [trimSpace_of_solid hsolid]
    exact hlines.mpr hclean

/-- **Which right-sizing code is faithful.** For an identity with a grant that is used and one that is not, the
code that `Generate` returns is read as one removal for each grant that is not used, in order, each naming
that grant alone, and nothing else, exactly if the identity is `Safe`. -/
theorem code_faithful_iff (H Y : Escapes) (U : Unicode) {id : Identity}
    (hnames : (id.permissions.map Permission.name).Nodup) (hused : ∃ p ∈ id.permissions, p.used = true)
    (hunused : id.unused ≠ []) :
    ∃ r, generate U id = some r ∧ (Faithful H Y U id r.code ↔ Safe H Y id) := by
  refine ⟨_, generate_eq_some.mpr ⟨hused, hunused, rfl⟩, ?_⟩
  dsimp only
  rw [faithful_iff]
  unfold Safe template literals remediationCode
  by_cases haws : id.source = "aws_iam"
  · have hother : id.source ≠ "agents" := by rw [haws]; decide
    have hne : awsLines id ≠ [] := List.cons_ne_nil _ _
    have hlines := lines_reads_iff (L := hcl H) rfl rfl hne
    rw [if_pos haws, if_pos haws, if_pos haws, if_neg hother, generateAWS_eq hunused, haws,
      hlines, clean_awsLines_iff hunused, and_assoc]
  have halone := alone_of_nodup hnames haws
  rw [and_iff_left halone, if_neg haws, if_neg haws, if_neg haws]
  by_cases hgcp : id.source = "gcp_iam"
  · have hother : id.source ≠ "agents" := by rw [hgcp]; decide
    have hne : gcpLines U id ≠ [] := List.cons_ne_nil _ _
    have hlines := lines_reads_iff (L := hcl H) rfl rfl hne
    rw [if_pos hgcp, if_pos hgcp, if_pos hgcp, if_neg hother, generateGCP_eq U hunused,
      hlines, clean_gcpLines_iff hunused]
  rw [if_neg hgcp, if_neg hgcp, if_neg hgcp]
  by_cases hazure : id.source = "azure"
  · have hother : id.source ≠ "agents" := by rw [hazure]; decide
    have hne : azureLines id ≠ [] := List.cons_ne_nil _ _
    have hlines := lines_reads_iff (L := hcl H) rfl rfl hne
    rw [if_pos hazure, if_pos hazure, if_pos hazure, if_neg hother, generateAzure_eq hunused,
      hlines, clean_azureLines_iff hunused]
  rw [if_neg hazure, if_neg hazure, if_neg hazure]
  by_cases hagents : id.source = "agents"
  · have hne : agentLines id ≠ [] := List.cons_ne_nil _ _
    have hlines := lines_reads_iff (L := yaml Y) rfl rfl hne
    rw [if_pos hagents, if_pos hagents, if_pos hagents, if_pos hagents, generateAgent_eq hunused,
      hlines, clean_agentLines_iff]
  · have hL : (hcl H).breaks = lineBreaks := rfl
    rw [if_neg hagents, if_neg hagents, if_neg hagents, if_neg hagents, generic_lines_iff rfl rfl hL haws hunused]

/-- A quote, a backslash and a line feed behind a backslash. -/
def basicEscapes : Escapes where
  unescape
    | c :: rest =>
      if c = 0x22 ∨ c = 0x5C then some ([c], rest) else if c = 0x6E then some ([0x0A], rest) else none
    | [] => none
  weight := fun _ => 1
  lighter := by
    intro s w rest h
    cases s with
    | nil => cases h
    | cons c s =>
      dsimp only at h
      split_ifs at h <;> obtain ⟨rfl, rfl⟩ := Prod.mk.inj (Option.some.inj h) <;> simp

/-- A role with a grant it uses and another. -/
def etl : Identity :=
  { Identity.zero "arn:aws:iam::1:role/etl" with
    source := "aws_iam"
    permissions := [⟨"ReadData", false, true, [], ""⟩,
      ⟨"WriteData", false, false, [], "arn:aws:iam::1:policy/WriteData"⟩] }

theorem code_faithful_iff_etl : ∃ r, generate Unicode.basic etl = some r ∧
    Faithful basicEscapes basicEscapes Unicode.basic etl r.code := by
  obtain ⟨r, hr, hiff⟩ := @code_faithful_iff basicEscapes basicEscapes Unicode.basic etl (by decide)
    ⟨_, List.mem_cons_self, rfl⟩ (by decide)
  have hunused : etl.unused = [⟨"WriteData", false, false, [], "arn:aws:iam::1:policy/WriteData"⟩] := rfl
  have hrole : Plain (hcl basicEscapes) (roleName etl.id) := plain_hcl_of_forall (forall_mem_of_all (by decide))
  have harn : Plain (hcl basicEscapes) ("arn:aws:iam::1:policy/WriteData" : GoString) :=
    plain_hcl_of_forall (forall_mem_of_all (by decide))
  refine ⟨r, hr, hiff.mpr ?_⟩
  have haws : etl.source = "aws_iam" := rfl
  rw [Safe, if_pos haws, hunused, List.forall_mem_singleton, List.forall_mem_singleton]
  exact ⟨hrole, ⟨Or.inl (by decide), harn⟩, by decide⟩

/-- An agent with a tool whose name ends its literal and its line, and starts another. -/
def triage : Identity :=
  { Identity.zero "agent:support-triage" with
    source := "agents"
    permissions := [⟨"jira_read", false, true, [], ""⟩, ⟨"s3_read\"\n    - \"shell_exec", false, false, [], ""⟩] }

/-- **A tool that nobody granted** stands among those that are kept. -/
theorem injected_tool : ∃ r, generate Unicode.basic triage = some r ∧
    ("    - \"shell_exec\"" : GoString) ∈ Strings.split r.code 0x0A ∧
    ¬ Faithful basicEscapes basicEscapes Unicode.basic triage r.code := by
  refine ⟨_, rfl, by decide +kernel, fun h => ?_⟩
  have hlength := h.lines.length_eq
  revert hlength
  decide +kernel

end Idryx.Remediation
