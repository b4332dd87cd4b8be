import Mathlib.Logic.Function.Iterate
import Stencil.Proofs.Template.Blocks
import Stencil.Proofs.Template.Failures
import Stencil.Proofs.Template.Locality

/-!
# Files inside of files

While a template is compiled, several files are open at once: the one that is being read, and around
it those that wait for the file that they include. Here parsing is told step by step, without a
bound on the nesting: a `Position` is the stack of the open files, each with what has been read of
it, and a step reads one item, opens an included file on top of the stack, or closes the file on top
and goes on behind the tag that included it (`Stage.next`).

* Nothing in a step makes anything smaller, since an included file may be longer than all that is
  around it. What ends the descent is the stack: among files in memory, a step opens a file only
  if it is not open already, so the names on the stack are distinct names of memory, except that
  the root may be something else (`OpenInside`). So the stack has at most one source more than
  there are files.
* The parser proper is recursive and carries a bound. By induction on that bound, and for every file
  on its items, the steps go through what the recursion goes through and come to the same result
  (`parseFile_mirrors`). The bound is never met, since the stack would have outgrown the files.
* Steps are a function. So what happens at a position that the steps come to decides about the
  compilation, and an `#include` of a file that is still open is an error of the whole.

Main definitions: `Position`, `Position.reopens?`, `Stage.next`, `OpenInside`.
Main statements: `OpenInside.next`, `parseFile_mirrors`, `compile_halts`.
-/

namespace Stencil

/-! ### Positions -/

/-- A source whose text is being parsed. -/
structure OpenFile where
  source : Source
  /-- The assignments of the tag that included it. -/
  assignments : List Expr
  blocks : Blocks
  /-- The items that have not been read. -/
  rest : List Item

/-- A position of the parser. -/
structure Position where
  /-- What is being read. -/
  file : OpenFile
  /-- What waits for it, the innermost first. -/
  around : List OpenFile
  draft : Draft

/-- The names of sources, as far as they have one. -/
def Source.names (sources : List Source) : List String := sources.flatMap (·.fileName?.toList)

/-- The items of a source, or why there are none. -/
def Source.readItems (config : Config) (files : Files) (source : Source) :
    Except Error (List Item) := do
  let content ← source.content files
  (itemsOf config.keep content.toList).mapError fun e => .parse ⟨e.1, ⟨source.fileName?, e.2⟩⟩

/-- The row and the parameters of an item, if it is an `#include` where one may stand. -/
def Blocks.includes? (b : Blocks) : Item → Option (Nat × String)
  | .tag (.directive "include" parameters) row =>
    if b.awaitsCase then none else some (row, parameters.getD "")
  | _ => none

/-- An `#include` is refused if its file is open. -/
def Parsing.checkClosed (p : Parsing) (row : Nat) (source : Source) : Except Error Unit :=
  match source.fileName? with
  | some name =>
    if name ∈ p.opened then p.complain row ("Circular #include of " ++ name) else .ok ()
  | none => .ok ()

namespace Position

variable (config : Config) (files : Files) (here : Position)

/-- The sources that are open, the innermost first. -/
def sources : List Source := here.file.source :: here.around.map (·.source)

/-- The names of the files that are open. -/
def names : List String := Source.names here.sources

/-- What the parser knows at a position. It reads the items that include nothing. -/
def parsing : Parsing :=
  { config, files, file := here.file.source.fileName?, opened := here.names
    nested := fun _ draft => .ok (.nothing, draft) }

/-- The position at the beginning of a source. -/
def atStart (around : List OpenFile) (assignments : List Expr) (source : Source) (draft : Draft) :
    Except Error Position := do
  let items ← source.readItems config files
  return ⟨⟨source, assignments, {}, items⟩, around,
    { draft with sources := draft.sources ++ [source] }⟩

/-- The position behind some items. -/
def behind (blocks : Blocks) (rest : List Item) (draft : Draft) : Position :=
  ⟨{ here.file with blocks, rest }, here.around, draft⟩

/-- The position at the beginning of an included file. -/
def enter (row : Nat) (parameters : String) (rest : List Item) : Except Error Position := do
  let p := here.parsing config files
  let (name, assignments) ← p.target row parameters "#include"
  let source ← files.openSource config.settings.basePath name
  p.checkClosed row source
  atStart config files ({ here.file with rest } :: here.around) assignments source here.draft

/-- The position that an item leads to. -/
def read (item : Item) (rest : List Item) : Except Error Position :=
  match here.file.blocks.includes? item with
  | some (row, parameters) => here.enter config files row parameters rest
  | none => do
    let (blocks, draft) ← (here.parsing config files).add here.file.blocks here.draft item
    return here.behind blocks rest draft

/-- Where the next item is an `#include` of a file that is still open: the place of the tag, and the
name of the file. -/
def reopens? : Option (Location × String) := do
  let item ← here.file.rest.head?
  let (row, parameters) ← here.file.blocks.includes? item
  let (name, _) ← ((here.parsing config files).target row parameters "#include").toOption
  let source ← (files.openSource config.settings.basePath name).toOption
  let file ← source.fileName?
  if file ∈ here.names then some (⟨here.file.source.fileName?, row⟩, file) else none

end Position

/-- What parsing has come to. -/
inductive Stage where
  | reading (here : Position)
  | finished (outcome : Except Error (Statement × Draft))

namespace Stage

/-- The position of a stage, if it is not the last one. -/
def position? : Stage → Option Position
  | .reading here => some here
  | .finished _ => none

/-- Goes on, unless there was an error. -/
def of : Except Error Position → Stage
  | .ok here => .reading here
  | .error e => .finished (.error e)

/-- Goes on with what was parsed: behind the tag that included it, or with all of it. -/
def resume (around : List OpenFile) (assignments : List Expr) (parsed : Statement × Draft) :
    Stage :=
  match around with
  | [] => .finished (.ok parsed)
  | outer :: around =>
    let blocks := outer.blocks.append (.inlined assignments parsed.1)
    .reading ⟨{ outer with blocks }, around, parsed.2⟩

/-- The position of a stage that goes on reading. -/
theorem position?_eq_some_iff {s : Stage} {here : Position} :
    s.position? = some here ↔ s = .reading here := by
  cases s with
  | reading there => exact ⟨fun h => congrArg Stage.reading (Option.some.inj h),
      fun h => congrArg some (Stage.reading.inj h)⟩
  | finished outcome => exact ⟨nofun, nofun⟩

variable (config : Config) (files : Files)

/-- The end of a source. -/
def leave (here : Position) : Stage :=
  match here.file.blocks.stack with
  | [] => resume here.around here.file.assignments (here.file.blocks.body, here.draft)
  | (opener, _) :: _ =>
    .finished ((here.parsing config files).errorAt opener.row (.unexpectedEnd "#end"))

/-- One step. -/
def next : Stage → Stage
  | .finished outcome => .finished outcome
  | .reading here =>
    match here.file.rest with
    | [] => leave config files here
    | item :: rest => .of (here.read config files item rest)

/-- Where the compilation of a source begins. -/
def start (source : Source) (nextSite : Nat) : Stage :=
  .of (Position.atStart config files [] [] source { nextSite })

/-- Some steps lead from one stage to another one. -/
def Reaches (s t : Stage) : Prop := ∃ n, (next config files)^[n] s = t

end Stage

/-! ### Items and includes -/

namespace Parsing

variable {p : Parsing} {b : Blocks} {draft : Draft}

/-- An `#include`, taken apart: the file is opened, must not be open already, and is parsed. -/
theorem includeFile_eq (row : Nat) (parameters : String) :
    p.includeFile row parameters draft = (do
      let (name, assignments) ← p.target row parameters "#include"
      let source ← p.files.openSource p.config.settings.basePath name
      p.checkClosed row source
      let (body, draft) ← p.nested source draft
      return (.inlined assignments body, draft)) := by
  unfold includeFile
  refine bind_congr fun target => bind_congr fun source => ?_
  unfold checkClosed
  cases source.fileName? with
  | none => rfl
  | some name =>
    dsimp only
    split <;> rfl

/-- An `#include` where one may stand adds what it includes. -/
theorem add_of_includes {item : Item} {row : Nat} {parameters : String}
    (h : b.includes? item = some (row, parameters)) :
    p.add b draft item =
      p.includeFile row parameters draft >>= fun r => .ok (b.append r.1, r.2) := by
  unfold Blocks.includes? at h
  split at h
  · split at h
    · cases h
    · rename_i hcase
      obtain ⟨rfl, rfl⟩ := Prod.mk.inj (Option.some.inj h)
      rw [add_builtIn (Bool.not_eq_true _ ▸ hcase) (by decide)]
      rfl
  · cases h

/-- Only an `#include` asks for the parser of included files. -/
theorem add_of_not_includes {item : Item} (h : b.includes? item = none)
    (nested : Source → Draft → Except Error (Statement × Draft)) :
    (p.among p.files nested).add b draft item = p.add b draft item := by
  cases item with
  | text chars row => rfl
  | tag tag row =>
    change (p.among p.files nested).addTag b draft tag row = p.addTag b draft tag row
    unfold addTag
    cases Divider.ofTag? tag with
    | some divider => rfl
    | none =>
      dsimp only
      cases hcase : b.awaitsCase with
      | true => rfl
      | false =>
        cases tag with
        | call name ifDefined parameters => rfl
        | define name parameters => rfl
        | directive id parameters =>
          have hid : id ≠ "include" := by
            rintro rfl
            simp [Blocks.includes?, hcase] at h
          -- All other directives ask for the name of the file and for the configuration at most.
          change (p.among p.files nested).directive b draft id (parameters.getD "") row =
            p.directive b draft id (parameters.getD "") row
          unfold directive
          split
          all_goals first
            | exact absurd rfl hid
            | rfl

end Parsing

/-! ### The stack of open files -/

/-- The sources that are open while a root is compiled: the root, and inside of it files in memory
that are open once. -/
inductive OpenInside (m : MemoryFiles) : List Source → Prop
  | root (source : Source) : OpenInside m [source]
  | file {source : Source} {name : String} {sources : List Source} :
      OpenInside m sources → source.fileName? = some name → name ∈ m.names.keys →
      name ∉ Source.names sources → OpenInside m (source :: sources)

theorem Source.names_cons (source : Source) (sources : List Source) :
    Source.names (source :: sources) = source.fileName?.toList ++ Source.names sources :=
  List.flatMap_cons

namespace OpenInside

variable {m : MemoryFiles} {sources : List Source}

/-- No file is open twice. -/
theorem nodup_names (h : OpenInside m sources) : (Source.names sources).Nodup := by
  induction h with
  | root source =>
    rw [Source.names_cons]
    cases source.fileName? with
    | none => exact List.nodup_nil
    | some name => exact List.nodup_cons.mpr ⟨List.not_mem_nil, List.nodup_nil⟩
  | file _ hname _ hnew ih =>
    rw [Source.names_cons, hname]
    exact List.nodup_cons.mpr ⟨hnew, ih⟩

/-- What is open inside of the root are different files. -/
theorem exists_names (h : OpenInside m sources) :
    ∃ names : List String, names.Nodup ∧ names ⊆ m.names.keys ∧ names ⊆ Source.names sources ∧
      sources.length = names.length + 1 := by
  -- The root is left out: it may be a string, or a file that is no longer in memory.
  induction h with
  | root source => exact ⟨[], List.nodup_nil, List.nil_subset _, List.nil_subset _, rfl⟩
  | @file source name sources _ hname hkey hnew ih =>
    obtain ⟨names, hnodup, hkeys, hnames, hlength⟩ := ih
    refine ⟨name :: names, ?_, List.cons_subset.mpr ⟨hkey, hkeys⟩, ?_, ?_⟩
    · exact List.nodup_cons.mpr ⟨fun hmem => hnew (hnames hmem), hnodup⟩
    · rw [Source.names_cons, hname]
      exact List.cons_subset_cons name hnames
    · rw [List.length_cons, List.length_cons, hlength]

/-- The nesting exceeds the number of files by one at most. -/
theorem length_le (h : OpenInside m sources) : sources.length ≤ m.names.size + 1 := by
  obtain ⟨names, hnodup, hkeys, _, hlength⟩ := h.exists_names
  have hle := hnodup.length_le_of_subset hkeys
  unfold Assoc.keys at hle
  rw [List.length_map] at hle
  rw [hlength]
  exact Nat.succ_le_succ hle

/-- A file that was not open is one more open file. -/
theorem enter {files : Files} (hfiles : files.storage = .memory) {p : Parsing} {row : Nat}
    {basePath : Option String} {name : String} {source : Source}
    (hnames : p.opened = Source.names sources) (h : OpenInside files.memory sources)
    (hopen : files.openSource basePath name = .ok source)
    (hfresh : p.checkClosed row source = .ok ()) :
    OpenInside files.memory (source :: sources) := by
  obtain ⟨i, entry, hentry, rfl⟩ := (openSource_eq_ok_iff hfiles).mp hopen
  have hcurrent : (Source.memory (withoutSlashes name) i entry.content entry.version).Current
      files.memory := ⟨i, entry.version, hentry⟩
  obtain ⟨key, hkey, hmem⟩ := hcurrent.mem_keys
  refine h.file hkey hmem fun hagain => ?_
  -- If its name were open, the check would have failed.
  unfold Parsing.checkClosed at hfresh
  rw [hkey] at hfresh
  dsimp only at hfresh
  rw [if_pos (hnames ▸ hagain)] at hfresh
  cases hfresh

end OpenInside

/-! ### Steps -/

namespace Stage

variable {config : Config} {files : Files} {s t u : Stage}

theorem Reaches.refl : Reaches config files s s := ⟨0, rfl⟩

/-- Some steps after some others. -/
theorem Reaches.trans (h : Reaches config files s t) (h' : Reaches config files t u) :
    Reaches config files s u := by
  obtain ⟨n, rfl⟩ := h
  obtain ⟨n', rfl⟩ := h'
  exact ⟨n' + n, Function.iterate_add_apply _ n' n s⟩

theorem Reaches.step : Reaches config files s (next config files s) := ⟨1, rfl⟩

/-- What is finished stays so. -/
theorem iterate_finished (n : Nat) (outcome : Except Error (Statement × Draft)) :
    (next config files)^[n] (.finished outcome) = .finished outcome :=
  Function.iterate_fixed rfl n

/-- Steps do not end in two ways. -/
theorem Reaches.finished_unique {outcome outcome' : Except Error (Statement × Draft)}
    (h : Reaches config files s (.finished outcome))
    (h' : Reaches config files s (.finished outcome')) : outcome = outcome' := by
  obtain ⟨n, hn⟩ := h
  obtain ⟨n', hn'⟩ := h'
  -- Each of the two runs goes on for as many steps as the other one has.
  have hboth : Stage.finished outcome = Stage.finished outcome' := by
    calc Stage.finished outcome
        = (next config files)^[n'] ((next config files)^[n] s) := by rw [hn, iterate_finished]
      _ = (next config files)^[n] ((next config files)^[n'] s) := by
          rw [← Function.iterate_add_apply, Nat.add_comm, Function.iterate_add_apply]
      _ = .finished outcome' := by rw [hn', iterate_finished]
  exact Stage.finished.inj hboth

/-- The steps from one stage do what a computation does: they come to a stage for its result, or
stop at its error. -/
def Mirrors (config : Config) (files : Files) {α : Type} (s : Stage) (after : α → Stage)
    (x : Except Error α) : Prop :=
  Ends (fun a => Reaches config files s (after a))
    (fun e => Reaches config files s (.finished (.error e))) x

variable {α β : Type} {after : α → Stage} {after' : β → Stage}

/-- Some steps before those that do what a computation does. -/
theorem Mirrors.trans {x : Except Error α} (h : Reaches config files s t)
    (hx : Mirrors config files t after x) : Mirrors config files s after x :=
  Ends.imp hx (fun ha => h.trans ha) fun he => h.trans he

/-- One computation after another one. -/
theorem Mirrors.bind {x : Except Error α} {f : α → Except Error β}
    (hx : Mirrors config files s after x)
    (hf : ∀ a, x = .ok a → Mirrors config files (after a) after' (f a)) :
    Mirrors config files s after' (x >>= f) := by
  cases x with
  | ok a => exact (hf a rfl).trans hx
  | error e => exact hx

/-- Computations that begin with the same step. -/
theorem Mirrors.same {γ : Type} {x : Except Error γ} {f : γ → Except Error Position}
    {g : γ → Except Error α} (h : ∀ c, x = .ok c → Mirrors config files (.of (f c)) after (g c)) :
    Mirrors config files (.of (x >>= f)) after (x >>= g) := by
  cases x with
  | ok c => exact h c rfl
  | error e => exact Reaches.refl

end Stage

/-! ### The recursion, step by step -/

section Recursion

open Stage

variable {config : Config} {files : Files} {here : Position}
  {nested : Source → Draft → Except Error (Statement × Draft)}

/-- From the beginning of any file that may be included at a position, the steps do what a parser of
included files does. -/
def MirrorsIncluded (config : Config) (files : Files) (here : Position)
    (nested : Source → Draft → Except Error (Statement × Draft)) : Prop :=
  ∀ {basePath name source row}, files.openSource basePath name = .ok source →
    (here.parsing config files).checkClosed row source = .ok () →
    ∀ outer : OpenFile, outer.source = here.file.source → ∀ assignments draft,
      Mirrors config files
        (.of (Position.atStart config files (outer :: here.around) assignments source draft))
        (resume (outer :: here.around) assignments) (nested source draft)

/-- The step of an item does what the recursive parser does with it. -/
theorem read_mirrors (hnested : MirrorsIncluded config files here nested) (item : Item)
    (rest : List Item) :
    Mirrors config files (.of (here.read config files item rest))
      (fun r => .reading (here.behind r.1 rest r.2))
      (((here.parsing config files).among files nested).add here.file.blocks here.draft item) := by
  unfold Position.read
  -- an item that includes nothing is read by the same function
  cases hincludes : here.file.blocks.includes? item with
  | none =>
    have hadd : ((here.parsing config files).among files nested).add here.file.blocks here.draft
        item = (here.parsing config files).add here.file.blocks here.draft item :=
      Parsing.add_of_not_includes hincludes nested
    rw [hadd]
    dsimp only
    cases (here.parsing config files).add here.file.blocks here.draft item with
    | ok r => exact Reaches.refl
    | error e => exact Reaches.refl
  | some found =>
    -- an `#include`: the step enters the file that the recursion parses
    obtain ⟨row, parameters⟩ := found
    rw [Parsing.add_of_includes (p := (here.parsing config files).among files nested) hincludes,
      Parsing.includeFile_eq]
    let behind (r : Statement × Draft) : Stage :=
      .reading (here.behind (here.file.blocks.append r.1) rest r.2)
    refine Mirrors.bind (?_ : Mirrors config files _ behind _) ?_
    swap
    · exact fun r _ => Reaches.refl
    -- The recursion and the step name, open and check the file in the same way.
    refine Mirrors.same fun ⟨name, assignments⟩ _ => Mirrors.same fun source hopen =>
      Mirrors.same fun _ hfresh => ?_
    exact (hnested hopen hfresh { here.file with rest } rfl assignments here.draft).bind
      fun r _ => Reaches.refl

/-- By induction on the items that have not been read. -/
theorem addAll_mirrors (hnested : MirrorsIncluded config files here nested) {items : List Item}
    (hrest : here.file.rest = items) :
    Mirrors config files (.reading here) (fun r => .reading (here.behind r.1 [] r.2))
      (((here.parsing config files).among files nested).addAll here.file.blocks here.draft
        items) := by
  induction items generalizing here with
  | nil =>
    obtain ⟨⟨source, assignments, blocks, rest⟩, around, draft⟩ := here
    obtain rfl : rest = [] := hrest
    exact Reaches.refl
  | cons item rest ih =>
    have hnext : next config files (.reading here) = .of (here.read config files item rest) := by
      simp only [next, hrest]
    have hread := (read_mirrors hnested item rest).trans (hnext ▸ Reaches.step)
    exact hread.bind fun r _ => @ih (here.behind r.1 rest r.2) hnested rfl

/-- From the beginning of a file to the stage behind its end. -/
theorem parseItems_mirrors (hnested : MirrorsIncluded config files here nested)
    (hblocks : here.file.blocks = {}) :
    Mirrors config files (.reading here) (resume here.around here.file.assignments)
      (((here.parsing config files).among files nested).parseItems here.draft here.file.rest) := by
  have hall := addAll_mirrors hnested rfl
  rw [hblocks] at hall
  -- Behind the last item, one more step leaves the file or finds a block that is still open.
  refine hall.bind fun ⟨⟨stack, current⟩, draft⟩ _ => ?_
  refine Mirrors.trans Reaches.step ?_
  cases stack with
  | nil => exact Reaches.refl
  | cons block stack => exact Reaches.refl

/-- A source is read, and its items are parsed. -/
theorem parseFile_succ (depth : Nat) (opened : List String) (source : Source) (draft : Draft) :
    parseFile config files (depth + 1) opened source draft =
      source.readItems config files >>= Parsing.parseItems
        { config, files, file := source.fileName?, opened := source.fileName?.toList ++ opened
          nested := parseFile config files depth (source.fileName?.toList ++ opened) }
        { draft with sources := draft.sources ++ [source] } := by
  unfold parseFile Source.readItems
  cases source.content files with
  | error e => rfl
  | ok content =>
    change Except.bind (.ok content) _ = Except.bind (Except.bind (.ok content) _) _
    dsimp only [Except.bind]
    cases itemsOf config.keep content.toList with
    | error e => rfl
    | ok items => rfl

/-- **The steps follow the recursion.** By induction on the bound that the recursion carries. The
stack cannot outgrow the files by more than one source, so the bound is not met. -/
theorem parseFile_mirrors (hfiles : files.storage = .memory) (depth : Nat)
    {around : List OpenFile} {source : Source}
    (hinside : OpenInside files.memory (source :: around.map (·.source)))
    (hdepth : files.memory.names.size + 2 ≤ depth + around.length) (assignments : List Expr)
    (draft : Draft) :
    Mirrors config files (.of (Position.atStart config files around assignments source draft))
      (resume around assignments)
      (parseFile config files depth (Source.names (around.map (·.source))) source draft) := by
  induction depth generalizing around source assignments draft with
  | zero =>
    have hlength := hinside.length_le
    rw [List.length_cons, List.length_map] at hlength
    omega
  | succ depth ih =>
    rw [parseFile_succ]
    refine Mirrors.same fun items _ => ?_
    refine @parseItems_mirrors config files ⟨⟨source, assignments, {}, items⟩, around, _⟩ _ ?_ rfl
    -- Inside of an included file the bound is one less and the stack is one source more.
    intro basePath name inner row hopen hfresh outer houter assignments draft
    have hinner : OpenInside files.memory (inner :: (outer :: around).map (·.source)) := by
      rw [List.map_cons, houter]
      exact hinside.enter hfiles rfl hopen hfresh
    have hroom : files.memory.names.size + 2 ≤ depth + (outer :: around).length := by
      rw [List.length_cons]
      omega
    have hmirrors := ih hinner hroom assignments draft
    rw [List.map_cons, Source.names_cons, houter] at hmirrors
    exact hmirrors

end Recursion

/-! ### What every step keeps -/

namespace OpenInside

variable {m : MemoryFiles}

/-- When a file is left, those around it are still open. -/
theorem of_cons {source outer : Source} {sources : List Source}
    (h : OpenInside m (source :: outer :: sources)) : OpenInside m (outer :: sources) := by
  cases h with
  | file h _ _ _ => exact h

variable {config : Config} {files : Files}

/-- The stack of a stage, if it has one, is one of different files. -/
def At (m : MemoryFiles) (s : Stage) : Prop := ∀ here ∈ s.position?, OpenInside m here.sources

theorem at_finished (outcome : Except Error (Statement × Draft)) : At m (.finished outcome) :=
  fun _ h => nomatch h

/-- A position whose stack is one of different files. -/
theorem at_reading {here : Position} (h : OpenInside m here.sources) : At m (.reading here) := by
  rintro _ ⟨⟩
  exact h

/-- The position that is gone on with has such a stack, if there is one. -/
theorem at_of {x : Except Error Position} (h : ∀ here, x = .ok here → OpenInside m here.sources) :
    At m (.of x) := by
  cases x with
  | ok here => exact at_reading (h here rfl)
  | error e => exact at_finished _

/-- A source begins on top of the stack. -/
theorem atStart_sources {around : List OpenFile} {assignments : List Expr} {source : Source}
    {draft : Draft} {here : Position}
    (h : Position.atStart config files around assignments source draft = .ok here) :
    here.sources = source :: around.map (·.source) := by
  obtain ⟨items, _, h⟩ := bind_eq_ok_iff.mp h
  rw [← Except.ok.inj h]
  rfl

/-- At the start, the root alone is open. -/
theorem at_start (root : Source) (first : Nat) :
    At m (.start config files root first) := by
  refine at_of fun here h => ?_
  rw [atStart_sources h]
  exact .root root

/-- Closing a file leaves the others open. -/
theorem at_leave {here : Position} (h : OpenInside m here.sources) :
    At m (.leave config files here) := by
  unfold Stage.leave
  split
  · obtain ⟨file, around, draft⟩ := here
    cases around with
    | nil => exact at_finished _
    | cons outer around => exact at_reading h.of_cons
  · exact at_finished _

/-- An item leaves the stack as it is, or puts one more file on it, which was not open. -/
theorem at_read (hfiles : files.storage = .memory) {here : Position}
    -- the included file is put on top of those around it
    (h : OpenInside files.memory here.sources) (item : Item) (rest : List Item) :
    At files.memory (.of (here.read config files item rest)) := by
  refine at_of fun there hread => ?_
  unfold Position.read at hread
  split at hread
  · obtain ⟨⟨name, assignments⟩, _, hread⟩ := bind_eq_ok_iff.mp hread
    obtain ⟨source, hopen, hread⟩ := bind_eq_ok_iff.mp hread
    obtain ⟨_, hfresh, hread⟩ := bind_eq_ok_iff.mp hread
    rw [atStart_sources hread]
    exact h.enter hfiles rfl hopen hfresh
  · obtain ⟨r, _, hread⟩ := bind_eq_ok_iff.mp hread
    rw [← Except.ok.inj hread]
    exact h

/-- **One step keeps the open files different.** -/
theorem next (hfiles : files.storage = .memory) {s : Stage} (h : At files.memory s) :
    At files.memory (s.next config files) := by
  cases s with
  | finished outcome => exact at_finished outcome
  | reading here =>
    change At files.memory (match here.file.rest with | [] => _ | item :: rest => _)
    cases here.file.rest with
    | nil => exact at_leave (h here rfl)
    | cons item rest => exact at_read hfiles (h here rfl) item rest

/-- So does any number of steps. -/
theorem iterate (hfiles : files.storage = .memory) {s : Stage} (h : At files.memory s) (n : Nat) :
    At files.memory ((Stage.next config files)^[n] s) := by
  induction n with
  | zero => exact h
  | succ n ih =>
    rw [Function.iterate_succ_apply']
    exact next hfiles ih

end OpenInside

/-! ### Compilations -/

/-- A computation has a result exactly if it goes well. -/
theorem toOption_eq_some_iff {ε α : Type} {x : Except ε α} {a : α} :
    x.toOption = some a ↔ x = .ok a := by
  cases x with
  | ok b => exact ⟨fun h => congrArg Except.ok (Option.some.inj h),
      fun h => congrArg some (Except.ok.inj h)⟩
  | error e => exact ⟨nofun, nofun⟩

/-- At an `#include` of a file that is still open, parsing stops with an error at this place. -/
theorem Position.next_of_reopens {config : Config} {files : Files} {here : Position}
    {location : Location} {file : String}
    (h : here.reopens? config files = some (location, file)) :
    (Stage.reading here).next config files =
      .finished (.error (.parse ⟨.other ("Circular #include of " ++ file), location⟩)) := by
  -- each part of the search has found something
  obtain ⟨item, hitem, h⟩ := Option.bind_eq_some_iff.mp h
  obtain ⟨⟨row, parameters⟩, hincludes, h⟩ := Option.bind_eq_some_iff.mp h
  obtain ⟨⟨name, assignments⟩, htarget, h⟩ := Option.bind_eq_some_iff.mp h
  obtain ⟨source, hopen, h⟩ := Option.bind_eq_some_iff.mp h
  obtain ⟨file', hname, h⟩ := Option.bind_eq_some_iff.mp h
  split at h
  case isFalse => cases h
  case isTrue hopened =>
    obtain ⟨rfl, rfl⟩ := Prod.mk.inj (Option.some.inj h)
    obtain ⟨rest, hrest⟩ := List.head?_eq_some_iff.mp hitem
    have hfresh : (here.parsing config files).checkClosed row source =
        (here.parsing config files).complain row ("Circular #include of " ++ file') := by
      unfold Parsing.checkClosed
      rw [hname]
      exact if_pos hopened
    -- the check refuses the file, so the step stops at the tag
    have hread : here.read config files item rest =
        (here.parsing config files).complain row ("Circular #include of " ++ file') := by
      unfold Position.read Position.enter
      rw [hincludes]
      dsimp only
      rw [toOption_eq_some_iff.mp htarget]
      change (files.openSource _ _ >>= _) = _
      rw [toOption_eq_some_iff.mp hopen]
      change ((here.parsing config files).checkClosed row source >>= _) = _
      rw [hfresh]
      rfl
    calc (Stage.reading here).next config files
        = .of (here.read config files item rest) := by simp only [Stage.next, hrest]
      _ = _ := by rw [hread]; rfl

/-- What compiling a source gives, once it is parsed. -/
def Compiled.ofParsed (parsed : Statement × Draft) : Compiled × Nat :=
  (⟨parsed.1, parsed.2.functions, parsed.2.sources⟩, parsed.2.nextSite)

/-- A compilation is the parse of its source. -/
theorem compile_eq_map (config : Config) (files : Files) (root : Source) (first : Nat) :
    compile config files root first =
      (parseFile config files files.nestingBound [] root { nextSite := first }).map
        Compiled.ofParsed := by
  unfold compile
  cases parseFile config files files.nestingBound [] root { nextSite := first } with
  | ok parsed => rfl
  | error e => rfl

/-- The steps from the beginning of a source come to what the recursion gives. -/
theorem start_reaches (config : Config) {files : Files} (hfiles : files.storage = .memory)
    (root : Source) (first : Nat) :
    Stage.Reaches config files (.start config files root first)
      (.finished (parseFile config files files.nestingBound [] root { nextSite := first })) := by
  -- the bound of the recursion is the room that the stack needs
  have hbound : files.nestingBound = files.memory.names.size + 2 := by
    unfold Files.nestingBound
    rw [hfiles]
  have hroom : files.memory.names.size + 2 ≤
      files.nestingBound + ([] : List OpenFile).length := Nat.le_of_eq hbound.symm
  have hmirrors : Stage.Mirrors config files (.start config files root first) (.resume [] [])
      (parseFile config files files.nestingBound [] root { nextSite := first }) :=
    parseFile_mirrors hfiles files.nestingBound (.root root) hroom [] { nextSite := first }
  cases hparsed : parseFile config files files.nestingBound [] root { nextSite := first } with
  | ok parsed =>
    rw [hparsed] at hmirrors
    exact hmirrors
  | error e =>
    rw [hparsed] at hmirrors
    exact hmirrors

/-- **Compilation ends and finds every cycle.** Among files in memory, and for any root, the steps
of the parser come to an end, which is what the source compiles to. At every position on the way no
file is open twice, and there is at most one more open source than there are files. If one of these
positions stands at an `#include` of a file that is still open, then compilation fails with the
error that names this file, at the place of the tag. -/
theorem compile_halts (config : Config) {files : Files} (hfiles : files.storage = .memory)
    (root : Source) (first : Nat) :
    (∃ n outcome,
      (Stage.next config files)^[n] (.start config files root first) = .finished outcome ∧
      compile config files root first = outcome.map Compiled.ofParsed) ∧
    ∀ n, ∀ here ∈ ((Stage.next config files)^[n] (.start config files root first)).position?,
      here.names.Nodup ∧ here.sources.length ≤ files.memory.names.size + 1 ∧
      ∀ location file, here.reopens? config files = some (location, file) →
        compile config files root first =
          .error (.parse ⟨.other ("Circular #include of " ++ file), location⟩) := by
  have hends := start_reaches config hfiles root first
  constructor
  · obtain ⟨n, hn⟩ := hends
    exact ⟨n, _, hn, compile_eq_map config files root first⟩
  · intro n here hhere
    have hinside : OpenInside files.memory here.sources :=
      OpenInside.iterate hfiles (OpenInside.at_start root first) n here hhere
    refine ⟨hinside.nodup_names, hinside.length_le, fun location file hreopens => ?_⟩
    -- The steps stop at the tag, and they stop in one way only.
    have hstops : Stage.Reaches config files (.start config files root first)
        (.finished (.error (.parse ⟨.other ("Circular #include of " ++ file), location⟩))) := by
      refine Stage.Reaches.trans ⟨n, Stage.position?_eq_some_iff.mp hhere⟩ ?_
      rw [← Position.next_of_reopens hreopens]
      exact Stage.Reaches.step
    rw [compile_eq_map, hends.finished_unique hstops]
    rfl

/-- A string includes a file, which includes another one from inside of a condition, which includes
the first one from inside of a function. -/
theorem compile_halts_cycle :
    let first := "#if(x)#include('b')#end"
    let second := "#define f()\n#include('/a')#end"
    let files : Files :=
      { storage := .memory, memory := (MemoryFiles.insert {} "a" first).insert "b" second }
    files.storage = .memory ∧
      compile {} files (.string "- #include('a')" false) 0 =
        .error (.parse ⟨.other "Circular #include of a", ⟨some "b", 2⟩⟩) := by
  intro first second files
  let root : Source := .string "- #include('a')" false
  -- the fifth step stands at the tag that closes the cycle
  have hcycle : ((Stage.next {} files)^[5] (.start {} files root 0)).position?.bind
      (·.reopens? {} files) = some (⟨some "b", 2⟩, "a") := by
    decide +kernel
  obtain ⟨here, hhere, hreopens⟩ := Option.bind_eq_some_iff.mp hcycle
  exact ⟨rfl, ((compile_halts {} rfl root 0).2 5 here hhere).2.2 _ "a" hreopens⟩

end Stencil
