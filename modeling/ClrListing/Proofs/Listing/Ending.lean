/-
How a report ends.

There are four things that can end a report early: a text that is not
parsed, a module that is not compiled, declarations and compiled members
that disagree, and a runtime that cannot be looked into (`ending`). Until
then nothing but stages is reported, and nothing at all unless they are
wanted. Then come the runtime and one block for each declaration at the
top, in order, whatever the host, the runtime and the decoder make of the
methods in it (`reportSource_ends`).

Which nodes are listed does not depend on the host (`planAll`): a method
that gets no native code is a node like any other.
-/
import ClrListing.Listing.Report
import ClrListing.Proofs.Run
import Mathlib.Data.List.Basic

namespace ClrListing.Listing

open Assembly Binding Declaration Lowering Metadata Native Syntax

variable {σ : Type}

-- =========================================================== steady runs

instance (source : String) : Run.Steady (Tree.parse source) := by
  unfold Tree.parse
  split
  · infer_instance
  · refine .after fun _ => ?_
    split <;> infer_instance

instance (m : Mismatch) : Run.Steady (Resolver.disagree m : Resolver.Resolving α) := by
  unfold Resolver.disagree
  infer_instance

instance (a : Assembly) (type : Token) (d : Declaration) :
    Run.Steady (Resolver.resolveMethod a type d) := by
  unfold Resolver.resolveMethod
  refine .after fun r => .after fun r' => .after fun _ => ?_
  split <;> infer_instance

instance (a : Assembly) (type : Token) (d : Declaration) :
    Run.Steady (Resolver.findNested a type d) := by
  unfold Resolver.findNested
  split <;> infer_instance

instance (a : Assembly) (d : Declaration) : Run.Steady (Resolver.findTop a d) := by
  unfold Resolver.findTop
  repeat' split
  all_goals infer_instance

mutual

theorem steady_resolveType (a : Assembly) (type : Token) :
    ∀ d : Declaration, Run.Steady (Resolver.resolveType a type d)
  | ⟨_, _, children⟩ => by
    have hinside := steady_resolveChildren a type children
    unfold Resolver.resolveType
    infer_instance

theorem steady_resolveChildren (a : Assembly) (type : Token) :
    ∀ ds : List Declaration, Run.Steady (Resolver.resolveChildren a type ds)
  | [] => by
    unfold Resolver.resolveChildren
    infer_instance
  | d :: rest => by
    have hfirst := fun nested => steady_resolveType a nested d
    have hrest := steady_resolveChildren a type rest
    unfold Resolver.resolveChildren
    dsimp only
    split <;> infer_instance

end

instance (a : Assembly) (forest : List Declaration) : Run.Steady (Resolver.resolve a forest) := by
  have hall : Run.Steady (Resolver.resolveAll a forest) := by
    induction forest with
    | nil =>
      unfold Resolver.resolveAll
      infer_instance
    | cons d rest ih =>
      have hfirst := fun type => steady_resolveType a type d
      unfold Resolver.resolveAll
      infer_instance
  unfold Resolver.resolve
  infer_instance

-- =============================================================== nodes

namespace Node

/-- The node of a method, whether it gets native code or not. -/
def planOfMethod (a : Assembly) (token : Token) : Except Error Node :=
  match a.method? token with
  | none => .error (.resolution (.foreignMethod token))
  | some m => .ok (if m.isOpen then .openMethod token else .method token)

mutual

/-- The node of a member, whatever gets native code. -/
def planOf (a : Assembly) : ResolvedMember → Except Error Node
  | ⟨token, children⟩ =>
    if token.isIn .typeDef then
      match a.type? token with
      | none => .error (.resolution (.foreignType token))
      | some t => do
        let nodes ← planAll a children
        return if t.isOpen then .openType token nodes else .type token nodes
    else planOfMethod a token

/-- The nodes of members, whatever gets native code. -/
def planAll (a : Assembly) : List ResolvedMember → Except Error (List Node)
  | [] => return []
  | m :: rest => do
    let node ← planOf a m
    let nodes ← planAll a rest
    return node :: nodes

end

/-- A failure to give a method native code is no failure. -/
theorem outcome_prepare (host : Host σ) (a : Assembly) (token : Token) (p : Progress σ) :
    (Run.upshot p (prepare host a token)).1 = .ok () := by
  unfold prepare
  rw [Run.upshot_bind, Run.upshot_attempt]
  dsimp only
  split <;> rfl

theorem outcome_ofMethod (host : Host σ) (a : Assembly) (isListed : Bool) (token : Token)
    (p : Progress σ) :
    (Run.upshot p (ofMethod host a isListed token)).1 = planOfMethod a token := by
  unfold ofMethod planOfMethod
  cases a.method? token with
  | none => rfl
  | some m =>
    dsimp only
    split
    · rfl
    · split
      · rw [Run.upshot_bind_fst, outcome_prepare]
        rfl
      · rfl

mutual

theorem outcome_ofMember (host : Host σ) (a : Assembly) :
    ∀ (m : ResolvedMember) (isListed : Bool) (p : Progress σ),
      (Run.upshot p (ofMember host a isListed m)).1 = planOf a m
  | ⟨token, children⟩, isListed, p => by
    rw [ofMember, planOf]
    split
    · cases a.type? token with
      | none => rfl
      | some t =>
        dsimp only
        rw [Run.upshot_bind_fst, outcome_ofMembers host a children]
        rfl
    · exact outcome_ofMethod host a isListed token p

theorem outcome_ofMembers (host : Host σ) (a : Assembly) :
    ∀ (ms : List ResolvedMember) (isListed : Bool) (p : Progress σ),
      (Run.upshot p (ofMembers host a isListed ms)).1 = planAll a ms
  | [], _, _ => by
    rw [ofMembers, planAll]
    rfl
  | m :: rest, isListed, p => by
    rw [ofMembers, planAll, Run.upshot_bind_fst, outcome_ofMember host a m]
    congr 1
    funext node
    rw [Run.upshot_bind_fst, outcome_ofMembers host a rest]
    rfl

end

theorem token_of_planOf {a : Assembly} {m : ResolvedMember} {node : Node}
    (h : planOf a m = .ok node) : node.token = m.token := by
  obtain ⟨token, children⟩ := m
  rw [planOf] at h
  split at h
  · cases htype : a.type? token with
    | none =>
      rw [htype] at h
      cases h
    | some t =>
      rw [htype] at h
      dsimp only at h
      cases hinside : planAll a children with
      | error e =>
        rw [hinside] at h
        cases h
      | ok nodes =>
        rw [hinside] at h
        cases h
        split <;> rfl
  · unfold planOfMethod at h
    split at h
    · cases h
    · cases h
      split <;> rfl

/-- A forest of nodes has one for each member at the top, in order. -/
theorem tokens_of_planAll {a : Assembly} {ms : List ResolvedMember} {nodes : List Node}
    (h : planAll a ms = .ok nodes) : nodes.map token = ms.map ResolvedMember.token := by
  induction ms generalizing nodes with
  | nil =>
    rw [planAll] at h
    cases h
    rfl
  | cons m rest ih =>
    rw [planAll] at h
    cases hfirst : planOf a m with
    | error e =>
      rw [hfirst] at h
      cases h
    | ok node =>
      cases hrest : planAll a rest with
      | error e =>
        rw [hfirst, hrest] at h
        cases h
      | ok others =>
        rw [hfirst, hrest] at h
        cases h
        rw [List.map_cons, List.map_cons, ih hrest, token_of_planOf hfirst]

end Node

-- ============================================================== endings

/-- How a report ends. -/
inductive Ending where
  /-- A stage failed. -/
  | failed (stage : Stage) (e : Error)
  /-- The stages are done, but there is no runtime. -/
  | unattached (e : Error)
  /-- The nodes are listed. -/
  | listed (nodes : List Node) (source : Source)

/-- The record that a stage is done. -/
def Toolchain.finished (t : Toolchain σ) (stage : Stage) : LogRecord :=
  ⟨.info, stage.label ++ " finished in " ++ (t.elapsed stage).repr ++ " ms"⟩

/-- The nodes of what a source declares, whatever gets native code. -/
def analysis (a : Assembly) (tree : Tree) : Except Error (List Node) := do
  let members ← (Run.upshot ⟨Resolver.start, []⟩
    (Resolver.resolve a (Declaration.forest tree.root))).1
  Node.planAll a members

/-- How a report ends: with the first that fails of parsing, compiling,
analyzing, and looking into the runtime, or with nodes that are listed. -/
def ending (t : Toolchain σ) (o : ReportOptions) (module source : String) (host : σ) (log : Log) :
    Ending :=
  match Run.upshot ⟨(), log⟩ (Tree.parse source) with
  | (.error e, _) => .failed .parsing e
  | (.ok tree, parsed) =>
    match Run.upshot ⟨(), parsed.log ++ [t.finished .parsing]⟩
        (t.compile module tree ⟨o.disableOptimization⟩) with
    | (.error e, _) => .failed .compiling e
    | (.ok a, compiled) =>
      let analyzed := (Run.upshot ⟨host, compiled.log ++ [t.finished .compiling]⟩
        (analyze t.host a tree)).2
      match analysis a tree with
      | .error e => .failed .analyzing e
      | .ok nodes =>
        match Run.upshot ⟨(), analyzed.log ++ [t.finished .analyzing]⟩ t.attach with
        | (.error e, _) => .unattached e
        | (.ok runtime, _) => .listed nodes (.ofHost t.host analyzed.state a runtime t.decoder)

-- =============================================================== steps

section Steps

variable (t : Toolchain σ) (o : ReportOptions)

/-- Parts that only verbose reports have. -/
def ReportOptions.notes (o : ReportOptions) (parts : Report) : Report :=
  if o.isVerbose then parts else []

theorem ReportOptions.notes_append (parts more : Report) :
    o.notes (parts ++ more) = o.notes parts ++ o.notes more := by
  unfold notes
  split <;> rfl

theorem upshot_write (part : Part) (p : Progress (Session σ)) :
    Run.upshot p (write part)
      = (.ok (), ⟨⟨p.state.report ++ [part], p.state.host⟩, p.log⟩) := rfl

theorem upshot_note (part : Part) (p : Progress (Session σ)) :
    Run.upshot p (note o part)
      = (.ok (), ⟨⟨p.state.report ++ o.notes [part], p.state.host⟩, p.log⟩) := by
  unfold note ReportOptions.notes
  split
  · rfl
  · rw [List.append_nil]
    rfl

/-- A stage is reported to have started and then to be done or to have
failed. -/
theorem upshot_runStage (stage : Stage) (run : Run σ α) (p : Progress (Session σ)) :
    Run.upshot p (runStage t o stage run) = match Run.upshot ⟨p.state.host, p.log⟩ run with
      | (.ok value, q) =>
        (.ok value, ⟨⟨p.state.report ++ o.notes [.started stage, .done (t.elapsed stage)], q.state⟩,
          q.log ++ [t.finished stage]⟩)
      | (.error e, q) =>
        (.error e, ⟨⟨p.state.report ++ o.notes [.started stage, .failed], q.state⟩, q.log⟩) := by
  have htwo : ∀ part, o.notes [.started stage, part] = o.notes [.started stage] ++ o.notes [part] :=
    fun part => o.notes_append [.started stage] [part]
  unfold runStage
  simp only [Run.upshot_bind, upshot_note, Run.upshot_state, Run.upshot_within, Run.upshot_setState]
  cases Run.upshot ⟨p.state.host, p.log⟩ run with
  | mk outcome q =>
    cases outcome with
    | error e =>
      simp only [Run.upshot_bind, upshot_note, Run.upshot_throw, htwo, List.append_assoc]
    | ok value =>
      simp only [Run.upshot_bind, upshot_note, Run.upshot_info, Run.upshot_pure, htwo,
        List.append_assoc]
      rfl

/-- The blocks of nodes are added in order. -/
theorem upshot_blocks (source : Source) (nodes : List Node) (p : Progress (Session σ)) :
    Run.upshot p (nodes.forM (writeBlock source))
      = (.ok (), ⟨⟨p.state.report ++ nodes.map fun node => .block (source.block node).lines,
          p.state.host⟩, p.log ++ nodes.flatMap fun node => (source.block node).log⟩) := by
  induction nodes generalizing p with
  | nil =>
    rw [List.map_nil, List.flatMap_nil, List.append_nil, List.append_nil]
    rfl
  | cons node rest ih =>
    have hblock : Run.upshot p (writeBlock source node)
        = (.ok (), ⟨⟨p.state.report ++ [.block (source.block node).lines], p.state.host⟩,
            p.log ++ (source.block node).log⟩) := rfl
    rw [List.forM, Run.upshot_bind, hblock]
    dsimp only
    rw [ih]
    simp only [List.map_cons, List.flatMap_cons, List.append_assoc, List.singleton_append]

/-- The nodes of a source do not depend on what gets native code. -/
theorem outcome_analyze (host : Host σ) (a : Assembly) (tree : Tree) (p : Progress σ) :
    (Run.upshot p (analyze host a tree)).1 = analysis a tree := by
  have hsteady := @Run.Steady.steady _ _
    (Resolver.resolve a (Declaration.forest tree.root)) _ ⟨Resolver.start, p.log⟩
  unfold analyze analysis
  rw [Run.upshot_bind, Run.upshot_within, hsteady]
  dsimp only
  cases (Run.upshot ⟨Resolver.start, []⟩ (Resolver.resolve a (Declaration.forest tree.root))).1 with
  | error e => rfl
  | ok members => exact Node.outcome_ofMembers host a members true _

end Steps

-- ============================================================= reports

/-- The stages before one. -/
def Stage.before : Stage → List Stage
  | parsing | parsingFile => []
  | compiling => [parsing]
  | analyzing => [parsing, compiling]

/-- What is reported of stages that are done. -/
def Toolchain.progress (t : Toolchain σ) (stages : List Stage) : Report :=
  stages.flatMap fun stage => [.started stage, .done (t.elapsed stage)]

/-- What is reported before the runtime. -/
def Toolchain.prelude (t : Toolchain σ) : Report :=
  t.progress [.parsing, .compiling, .analyzing] ++ [.separator]

namespace Ending

/-- Whether the report fails, and how. -/
def outcome : Ending → Except Error Unit
  | failed _ e | unattached e => .error e
  | listed _ _ => .ok ()

/-- The report with an ending. -/
def report (t : Toolchain σ) (o : ReportOptions) : Ending → Report
  | failed stage _ => o.notes (t.progress stage.before ++ [.started stage, .failed])
  | unattached _ => o.notes t.prelude
  | listed nodes source =>
    o.notes t.prelude ++ .banner source.runtime.info
      :: nodes.map fun node => .block (source.block node).lines

end Ending

/-- Whether a part tells of stages alone. -/
def Part.isProgress : Part → Bool
  | started _ | done _ | failed | separator => true
  | banner _ | block _ => false

/-- A report has one of four endings, and what goes before it. -/
theorem upshot_reportSource (t : Toolchain σ) (o : ReportOptions) (module source : String)
    (host : σ) (log : Log) :
    let reached := Run.upshot ⟨Session.start host, log⟩ (reportSource t o module source)
    reached.1 = (ending t o module source host log).outcome
      ∧ reached.2.state.report = (ending t o module source host log).report t o := by
  unfold reportSource ending
  dsimp only
  rw [Run.upshot_bind, upshot_runStage, Run.upshot_act]
  dsimp only [Session.start]
  rcases Run.upshot ⟨(), log⟩ (Tree.parse source) with ⟨e | tree, parsed⟩
  · exact ⟨rfl, rfl⟩
  unfold reportTree
  dsimp only
  rw [Run.upshot_bind, upshot_runStage, Run.upshot_act]
  dsimp only
  rcases Run.upshot ⟨(), parsed.log ++ [t.finished .parsing]⟩
    (t.compile module tree ⟨o.disableOptimization⟩) with ⟨e | a, compiled⟩
  · refine ⟨rfl, ?_⟩
    simp only [List.nil_append, ← ReportOptions.notes_append]
    rfl
  have hanalysis := outcome_analyze t.host a tree ⟨host, compiled.log ++ [t.finished .compiling]⟩
  dsimp only
  rw [Run.upshot_bind, upshot_runStage, ← hanalysis]
  dsimp only
  rcases Run.upshot ⟨host, compiled.log ++ [t.finished .compiling]⟩ (analyze t.host a tree) with
    ⟨e | nodes, analyzed⟩
  · refine ⟨rfl, ?_⟩
    simp only [List.nil_append, ← ReportOptions.notes_append]
    rfl
  dsimp only
  rw [Run.upshot_bind, upshot_note]
  dsimp only
  rw [Run.upshot_bind, Run.upshot_act]
  dsimp only
  rcases Run.upshot ⟨(), analyzed.log ++ [t.finished .analyzing]⟩ t.attach with ⟨e | runtime, attached⟩
  · refine ⟨rfl, ?_⟩
    simp only [List.nil_append, ← ReportOptions.notes_append]
    rfl
  dsimp only
  simp only [Run.upshot_bind, upshot_write, Run.upshot_state, upshot_blocks, Run.upshot_info]
  refine ⟨rfl, ?_⟩
  simp only [List.nil_append, ← ReportOptions.notes_append]
  rw [List.append_assoc]
  rfl

theorem isProgress_of_mem_progress (t : Toolchain σ) (stages : List Stage) {part : Part}
    (h : part ∈ t.progress stages) : part.isProgress = true := by
  obtain ⟨stage, _, hpart⟩ := List.mem_flatMap.mp h
  rcases List.mem_pair.mp hpart with rfl | rfl <;> rfl

theorem ReportOptions.mem_of_mem_notes {o : ReportOptions} {parts : Report} {part : Part}
    (h : part ∈ o.notes parts) : o.isVerbose = true ∧ part ∈ parts := by
  unfold notes at h
  split at h
  · exact ⟨‹_›, h⟩
  · cases h

/-- A report that fails tells of stages alone, and only if they are
wanted. -/
theorem Ending.isProgress_of_error {t : Toolchain σ} {o : ReportOptions} {x : Ending} {e : Error}
    (h : x.outcome = .error e) {part : Part} (hpart : part ∈ x.report t o) :
    o.isVerbose = true ∧ part.isProgress = true := by
  cases x with
  | failed stage _ =>
    obtain ⟨hverbose, hpart⟩ := ReportOptions.mem_of_mem_notes hpart
    refine ⟨hverbose, ?_⟩
    rcases List.mem_append.mp hpart with hdone | hlast
    · exact isProgress_of_mem_progress t _ hdone
    · rcases List.mem_pair.mp hlast with rfl | rfl <;> rfl
  | unattached _ =>
    obtain ⟨hverbose, hpart⟩ := ReportOptions.mem_of_mem_notes hpart
    refine ⟨hverbose, ?_⟩
    rcases List.mem_append.mp hpart with hdone | hlast
    · exact isProgress_of_mem_progress t _ hdone
    · rw [List.mem_singleton.mp hlast]
      rfl
  | listed nodes source => cases h

/-- The nodes that are listed are those of the declarations at the top, in
order. -/
theorem tokens_of_ending {t : Toolchain σ} {o : ReportOptions} {module source : String} {host : σ}
    {log : Log} {nodes : List Node} {s : Source}
    (h : ending t o module source host log = .listed nodes s) :
    ∃ tree members, (Run.outcome (Tree.parse source)).1 = .ok tree
      ∧ (Run.upshot ⟨Resolver.start, []⟩
          (Resolver.resolve s.assembly (Declaration.forest tree.root))).1 = .ok members
      ∧ nodes.map Node.token = members.map ResolvedMember.token := by
  have hsteady := @Run.Steady.steady _ _ (Tree.parse source) _ ⟨(), log⟩
  rw [Run.outcome_eq]
  unfold ending at h
  split at h
  · cases h
  next tree parsed hparse =>
  split at h
  · cases h
  next a compiled _ =>
  dsimp only at h
  split at h
  · cases h
  next nodes' hanalysis =>
  split at h
  · cases h
  cases h
  unfold analysis at hanalysis
  rw [hparse] at hsteady
  cases hmembers : (Run.upshot ⟨Resolver.start, []⟩
      (Resolver.resolve a (Declaration.forest tree.root))).1 with
  | error e =>
    rw [hmembers] at hanalysis
    cases hanalysis
  | ok members =>
    rw [hmembers] at hanalysis
    exact ⟨tree, members, (congrArg Prod.fst hsteady).symm, hmembers,
      Node.tokens_of_planAll hanalysis⟩

/-- A report fails exactly when parsing, compiling, analyzing or looking
into the runtime does, and then tells of stages alone. Otherwise the
runtime and a block for each declaration at the top follow, in order. -/
theorem reportSource_ends (t : Toolchain σ) (o : ReportOptions) (module source : String)
    (host : σ) (log : Log) :
    let reached := Run.upshot ⟨Session.start host, log⟩ (reportSource t o module source)
    let last := ending t o module source host log
    reached.1 = last.outcome ∧ reached.2.state.report = last.report t o
      ∧ (∀ e, reached.1 = .error e →
        ∀ part ∈ reached.2.state.report, o.isVerbose = true ∧ part.isProgress = true)
      ∧ ∀ nodes s, last = .listed nodes s →
        ∃ tree members, (Run.outcome (Tree.parse source)).1 = .ok tree
          ∧ (Run.upshot ⟨Resolver.start, []⟩
              (Resolver.resolve s.assembly (Declaration.forest tree.root))).1 = .ok members
          ∧ nodes.map Node.token = members.map ResolvedMember.token := by
  obtain ⟨houtcome, hreport⟩ := upshot_reportSource t o module source host log
  refine ⟨houtcome, hreport, fun e he part hpart => ?_, fun nodes s => tokens_of_ending⟩
  rw [houtcome] at he
  rw [hreport] at hpart
  exact Ending.isProgress_of_error he hpart

end ClrListing.Listing
