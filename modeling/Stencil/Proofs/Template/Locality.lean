import Stencil.Proofs.Template.Likeness

/-!
# What a parsed file depends on

A file that has been parsed depends on the texts that were read for it, and on nothing else. If the
files have changed since, but every source that was read still has its text, parsing the file again
goes well and gives a template that is alike, however the other files have changed, and even if a
file that was read has been removed and stored again.

* Parsing only adds to the sources that were read, and only an `#include` does so
  (`Parsing.add_sources`, `parseFile_sources`). So what is known of all sources at the end is known
  of those of every include on the way.
* The nesting of includes does not run against its bound: the names of the files that are open are
  distinct, and each of them is the name of a file.

Main definitions: `Source.Twin`, `Source.Current`.
Main statements: `parseFile_local`, `compile_local`.
-/

namespace Stencil

/-! ### Sources with their texts -/

/-- Two sources of one file in memory, with one text. -/
def Source.Twin : Source → Source → Prop
  | .memory name _ content _, .memory name' _ content' _ => name = name' ∧ content = content'
  | _, _ => False

/-- A source in memory whose name is still that of a file with the text that was read. -/
def Source.Current (m : MemoryFiles) : Source → Prop
  | .memory name _ content _ => ∃ i version, m.entryOf? name = some (i, ⟨content, version⟩)
  | .disk .. | .string .. => False

/-! ### What a step adds to the sources -/

/-- A result leaves the sources of a draft as they are. -/
def KeepsSources (draft : Draft) (x : Except Error (Blocks × Draft)) : Prop :=
  ∀ r, x = .ok r → r.2.sources = draft.sources

namespace KeepsSources

variable {draft : Draft} {α : Type}

/-- A result with the sources of the draft. -/
theorem ok {r : Blocks × Draft} (h : r.2.sources = draft.sources) : KeepsSources draft (.ok r) := by
  rintro _ hr
  rw [← Except.ok.inj hr]
  exact h

theorem error {e : Error} : KeepsSources draft (.error e) := fun _ hr => nomatch hr

/-- Whatever goes first does not matter if what follows it keeps the sources. -/
theorem after {x : Except Error α} {f : α → Except Error (Blocks × Draft)}
    (h : ∀ a, KeepsSources draft (f a)) : KeepsSources draft (x >>= f) := by
  cases x with
  | ok a => exact h a
  | error e => exact error

end KeepsSources

namespace Parsing

variable {p : Parsing} {b : Blocks} {draft : Draft}

/-- A divider adds no source. -/
theorem divide_keepsSources (row : Nat) (divider : Divider) :
    KeepsSources draft (p.divide b draft row divider) := by
  unfold divide
  split
  · exact .error
  · -- Every divider closes or opens a block, perhaps after reading expressions, or is misplaced.
    dsimp only
    split
    all_goals first
      | exact .ok rfl
      | exact .error
      | exact .after fun _ => .ok rfl

/-- A directive that includes nothing adds no source. -/
theorem directive_keepsSources {id : String} (parameters : String) (row : Nat)
    (hid : id ≠ "include") : KeepsSources draft (p.directive b draft id parameters row) := by
  unfold directive
  split
  -- each directive makes a statement or opens a block, with the draft as it is
  · exact .after fun _ => .ok rfl
  · exact .after fun _ => .ok rfl
  · exact .after fun _ => .ok rfl
  · exact .after fun _ => .ok rfl
  · exact absurd rfl hid
  · exact .after fun _ => .ok rfl
  · exact .after fun _ => .after fun _ => .ok rfl
  · exact .after fun _ => .after fun _ => .ok rfl
  · split
    · exact .ok rfl
    · exact .error
  · split
    · exact .ok rfl
    · exact .error
  · exact .ok rfl
  · split
    · refine .after fun assignments => ?_
      split
      · exact .error
      · exact .ok rfl
    · exact .after fun _ => .ok rfl

/-- An item that is no `#include` adds no source. -/
theorem add_keepsSources {item : Item}
    (h : ∀ parameters row, item ≠ .tag (.directive "include" parameters) row) :
    KeepsSources draft (p.add b draft item) := by
  unfold add
  split
  -- a text
  · split
    · split
      · exact .ok rfl
      · exact .error
    · exact .ok rfl
  · rename_i tag row
    unfold addTag
    split
    -- a divider, and then tags of the other kinds
    · exact divide_keepsSources row _
    · split
      · exact .error
      · split
        · rename_i id parameters _
          refine directive_keepsSources _ row ?_
          rintro rfl
          exact h parameters row rfl
        · exact .after fun _ => .ok rfl
        · exact .after fun _ => .ok rfl

/-- An `#include` leaves the draft that its file leaves. -/
theorem add_include {parameters : Option String} {row : Nat} {r : Blocks × Draft}
    (h : p.add b draft (.tag (.directive "include" parameters) row) = .ok r) :
    ∃ statement, p.includeFile row (parameters.getD "") draft = .ok (statement, r.2) := by
  have htag : Divider.ofTag? (.directive "include" parameters) = none := by
    cases parameters <;> rfl
  change p.addTag b draft (.directive "include" parameters) row = .ok r at h
  unfold addTag at h
  rw [htag] at h
  dsimp only at h
  split at h
  · cases h
  · obtain ⟨q, hinclude, hr⟩ := bind_eq_ok_iff.mp h
    rw [← Except.ok.inj hr]
    exact ⟨q.1, hinclude⟩

/-- What goes well when an included file is read. -/
theorem includeFile_eq_ok_iff {row : Nat} {parameters : String} {r : Statement × Draft} :
    p.includeFile row parameters draft = .ok r ↔
      ∃ name assignments source body,
        p.target row parameters "#include" = .ok (name, assignments) ∧
        p.files.openSource p.config.settings.basePath name = .ok source ∧
        (∀ file, source.fileName? = some file → file ∉ p.opened) ∧
        p.nested source draft = .ok (body, r.2) ∧ r.1 = .inlined assignments body := by
  have hnested : ∀ (source : Source) (assignments : List Expr),
      (p.nested source draft >>= fun q => .ok (Statement.inlined assignments q.1, q.2)) = .ok r ↔
        ∃ body, p.nested source draft = .ok (body, r.2) ∧ r.1 = .inlined assignments body := by
    intro source assignments
    rw [bind_eq_ok_iff]
    constructor
    · rintro ⟨q, hq, hr⟩
      rw [← Except.ok.inj hr]
      exact ⟨q.1, hq, rfl⟩
    · rintro ⟨body, hbody, hr⟩
      exact ⟨_, hbody, congrArg Except.ok (Prod.ext hr.symm rfl)⟩
  unfold includeFile
  rw [bind_eq_ok_iff]
  constructor
  · -- Strings have no name and may be included anywhere; a file must not be open already.
    rintro ⟨⟨name, assignments⟩, htarget, h⟩
    obtain ⟨source, hopen, h⟩ := bind_eq_ok_iff.mp h
    suffices hgoes : (∀ file, source.fileName? = some file → file ∉ p.opened) ∧
        ∃ body, p.nested source draft = .ok (body, r.2) ∧ r.1 = .inlined assignments body by
      obtain ⟨hfile, body, hbody⟩ := hgoes
      exact ⟨name, assignments, source, body, htarget, hopen, hfile, hbody⟩
    cases hname : source.fileName? with
    | none =>
      rw [hname] at h
      exact ⟨fun _ hf => (by cases hf), (hnested source assignments).mp h⟩
    | some file =>
      rw [hname] at h
      dsimp only at h
      split at h
      · cases h
      · rename_i hfile
        refine ⟨?_, (hnested source assignments).mp h⟩
        rintro _ ⟨⟩
        exact hfile
  · rintro ⟨name, assignments, source, body, htarget, hopen, hfile, hbody⟩
    refine ⟨(name, assignments), htarget, bind_eq_ok_iff.mpr ⟨source, hopen, ?_⟩⟩
    have hgoes := (hnested source assignments).mpr ⟨body, hbody⟩
    cases hname : source.fileName? with
    | none => exact hgoes
    | some file =>
      dsimp only
      rw [if_neg (hfile file hname)]
      exact hgoes

/-- What goes well when a file has been read to its end. -/
theorem parseItems_eq_ok {items : List Item} {r : Statement × Draft}
    (h : p.parseItems draft items = .ok r) :
    ∃ s, p.addAll {} draft items = .ok s ∧ r.2 = s.2 := by
  obtain ⟨⟨b, draft⟩, hs, h⟩ := bind_eq_ok_iff.mp h
  refine ⟨_, hs, ?_⟩
  dsimp only at h
  split at h
  · rw [← Except.ok.inj h]
  · cases h

/-- The first item and the others go well, if all of them do. -/
theorem addAll_cons_eq_ok {item : Item} {rest : List Item} {r : Blocks × Draft}
    (h : p.addAll b draft (item :: rest) = .ok r) :
    ∃ s, p.add b draft item = .ok s ∧ p.addAll s.1 s.2 rest = .ok r := by
  unfold addAll at h
  exact bind_eq_ok_iff.mp h

/-! ### Parsing only adds sources -/

/-- Included files only add to the sources that were read. -/
def Grows (p : Parsing) : Prop :=
  ∀ {source draft r}, p.nested source draft = .ok r →
    draft.sources ++ [source] ⊆ r.2.sources

/-- An item only adds sources. -/
theorem add_sources (hp : p.Grows) {item : Item} {r : Blocks × Draft}
    (h : p.add b draft item = .ok r) : draft.sources ⊆ r.2.sources := by
  -- only an include adds any
  by_cases hitem : ∀ parameters row, item ≠ .tag (.directive "include" parameters) row
  · rw [add_keepsSources hitem r h]
    exact List.Subset.refl _
  · obtain ⟨parameters, row, rfl⟩ : ∃ parameters row,
        item = .tag (.directive "include" parameters) row := by
      simpa only [ne_eq, not_forall, not_not] using hitem
    obtain ⟨statement, hinclude⟩ := add_include h
    obtain ⟨_, _, source, _, _, _, _, hnested, _⟩ := includeFile_eq_ok_iff.mp hinclude
    exact List.Subset.trans (List.subset_append_left _ _) (hp hnested)

/-- Items only add sources. -/
theorem addAll_sources (hp : p.Grows) {items : List Item} {r : Blocks × Draft}
    (h : p.addAll b draft items = .ok r) : draft.sources ⊆ r.2.sources := by
  induction items generalizing b draft with
  | nil =>
    rw [← Except.ok.inj h]
    exact List.Subset.refl _
  | cons item rest ih =>
    obtain ⟨s, hadd, hrest⟩ := addAll_cons_eq_ok h
    exact List.Subset.trans (add_sources hp hadd) (ih hrest)

end Parsing

/-- Everything that goes well when a file is parsed. -/
theorem parseFile_eq_ok {config : Config} {files : Files} {depth : Nat} {opened : List String}
    {source : Source} {draft : Draft} {r : Statement × Draft}
    (h : parseFile config files (depth + 1) opened source draft = .ok r) :
    ∃ content items, source.content files = .ok content ∧
      itemsOf config.keep content.toList = .ok items ∧
      Parsing.parseItems
        { config, files, file := source.fileName?, opened := source.fileName?.toList ++ opened
          nested := parseFile config files depth (source.fileName?.toList ++ opened) }
        { draft with sources := draft.sources ++ [source] } items = .ok r := by
  unfold parseFile at h
  obtain ⟨content, hcontent, h⟩ := bind_eq_ok_iff.mp h
  dsimp only at h
  cases hitems : itemsOf config.keep content.toList with
  | error e => rw [hitems] at h; cases h
  | ok items =>
    rw [hitems] at h
    exact ⟨content, items, hcontent, hitems, h⟩

/-- Parsing a file adds it, and what it includes, to the sources that were read. -/
theorem parseFile_sources {config : Config} {files : Files} {depth : Nat} {opened : List String}
    {source : Source} {draft : Draft} {r : Statement × Draft}
    (h : parseFile config files depth opened source draft = .ok r) :
    draft.sources ++ [source] ⊆ r.2.sources := by
  induction depth generalizing opened source draft r with
  | zero => cases h
  | succ depth ih =>
    obtain ⟨content, items, _, _, hparse⟩ := parseFile_eq_ok h
    obtain ⟨s, hadd, hr⟩ := Parsing.parseItems_eq_ok hparse
    rw [hr]
    exact Parsing.addAll_sources (fun hnested => ih hnested) hadd

/-! ### Files in memory -/

/-- What is opened from files in memory. -/
theorem openSource_eq_ok_iff {files : Files} (hfiles : files.storage = .memory)
    {basePath : Option String} {name : String} {source : Source} :
    files.openSource basePath name = .ok source ↔
      ∃ i entry, files.memory.entryOf? (withoutSlashes name) = some (i, entry) ∧
        source = .memory (withoutSlashes name) i entry.content entry.version := by
  unfold Files.openSource Files.openMemory
  rw [hfiles]
  dsimp only
  constructor
  · intro h
    split at h
    · rename_i i entry hentry
      exact ⟨i, entry, hentry, (Except.ok.inj h).symm⟩
    · cases h
  · rintro ⟨i, entry, hentry, rfl⟩
    rw [hentry]

/-- A file that was opened and still has its text can be opened again. -/
theorem openSource_again {before now : Files} (hbefore : before.storage = .memory)
    (hnow : now.storage = .memory) {basePath : Option String} {name : String} {source : Source}
    (hopen : before.openSource basePath name = .ok source) (hcurrent : source.Current now.memory) :
    ∃ source', now.openSource basePath name = .ok source' ∧ source.Twin source' := by
  obtain ⟨i, entry, _, rfl⟩ := (openSource_eq_ok_iff hbefore).mp hopen
  obtain ⟨j, version, hentry⟩ := hcurrent
  exact ⟨_, (openSource_eq_ok_iff hnow).mpr ⟨j, _, hentry, rfl⟩, rfl, rfl⟩

namespace Source.Twin

variable {source source' : Source}

/-- Two sources of one file have one name. -/
theorem fileName?_eq (h : source.Twin source') : source.fileName? = source'.fileName? := by
  cases source with
  | memory name i content version =>
    cases source' with
    | memory name' i' content' version' => exact congrArg some h.1
    | disk _ _ _ => exact h.elim
    | string _ _ => exact h.elim
  | disk _ _ _ => exact h.elim
  | string _ _ => exact h.elim

/-- Two sources of one text have one content, in any files. -/
theorem content_eq (h : source.Twin source') (files files' : Files) :
    source.content files = source'.content files' := by
  cases source with
  | memory name i content version =>
    cases source' with
    | memory name' i' content' version' => exact congrArg Except.ok h.2
    | disk _ _ _ => exact h.elim
    | string _ _ => exact h.elim
  | disk _ _ _ => exact h.elim
  | string _ _ => exact h.elim

end Source.Twin

/-- A file with a current source has a name in memory. -/
theorem Source.Current.mem_keys {m : MemoryFiles} {source : Source} (h : source.Current m) :
    ∃ name, source.fileName? = some name ∧ name ∈ m.names.keys := by
  cases source with
  | memory name i content version =>
    obtain ⟨j, _, hentry⟩ := h
    have hk := (MemoryFiles.entryOf?_eq_some_iff.mp hentry).1
    have hsome : (m.names.get? name).isSome := by
      rw [hk]
      rfl
    exact ⟨name, rfl, (Assoc.contains_iff_mem_keys _ _).mp ((Assoc.isSome_get?_iff _ _).mp hsome)⟩
  | disk _ _ _ => exact h.elim
  | string _ _ => exact h.elim

/-! ### Room for nesting -/

/-- The names of the files that are open are distinct names in memory, and the bound on the nesting
of includes leaves room for all other names. -/
structure Roomy (m : MemoryFiles) (depth : Nat) (opened : List String) : Prop where
  nodup : opened.Nodup
  names : opened ⊆ m.names.keys
  room : m.names.size < depth + opened.length

/-- Where there is room, a file that is not open can be opened. -/
theorem Roomy.enter {m : MemoryFiles} {depth : Nat} {opened : List String}
    (h : Roomy m depth opened) {name : String} (hname : name ∈ m.names.keys)
    (hnew : name ∉ opened) : ∃ depth', depth = depth' + 1 ∧ Roomy m depth' (name :: opened) := by
  -- names that are distinct and in memory are no more than the names in memory
  have hnodup : (name :: opened).Nodup := List.nodup_cons.mpr ⟨hnew, h.nodup⟩
  have hnames : name :: opened ⊆ m.names.keys := List.cons_subset.mpr ⟨hname, h.names⟩
  have hlength : (name :: opened).length ≤ m.names.size := by
    have hle := hnodup.length_le_of_subset hnames
    unfold Assoc.keys at hle
    rwa [List.length_map] at hle
  have hroom := h.room
  rw [List.length_cons] at hlength
  cases depth with
  | zero => omega
  | succ depth' =>
    refine ⟨depth', rfl, hnodup, hnames, ?_⟩
    rw [List.length_cons]
    omega

/-! ### Parsing again -/

/-- What goes well on one side goes well on the other side, with a related result. -/
theorem Agree.of_ok {ε α β : Type} {r : α → β → Prop} {a : α} {y : Except ε β}
    (h : Agree r (.ok a) y) : ∃ b, y = .ok b ∧ r a b := by
  cases h with
  | ok hab => exact ⟨_, rfl, hab⟩

section Again

variable {config : Config} {before now : Files} {R : Likeness}

/-- Whatever goes well among earlier files, with sources that are all current now, goes well now. -/
def GoesAgain (R : Likeness) (m : MemoryFiles) (x y : Except Error (Statement × Draft)) : Prop :=
  ∀ r, x = .ok r → (∀ s ∈ r.2.sources, s.Current m) → ∃ r', y = .ok r' ∧ ReadAlike R r r'

namespace Parsing

variable {p : Parsing} {n n' : Source → Draft → Except Error (Statement × Draft)}

/-- An `#include` goes well again, if parsing the file that it names does. -/
theorem includeFile_local (hbefore : before.storage = .memory) (hnow : now.storage = .memory)
    (hgrows : (p.among before n).Grows)
    (hnested : ∀ {inner inner' : Source} {draft draft' : Draft}, inner.Twin inner' →
      (∀ file, inner.fileName? = some file → file ∉ p.opened) → Draft.Alike R draft draft' →
      GoesAgain R now.memory (n inner draft) (n' inner' draft'))
    (row : Nat) (parameters : String) {draft draft' : Draft} (hd : Draft.Alike R draft draft') :
    GoesAgain R now.memory ((p.among before n).includeFile row parameters draft)
      ((p.among now n').includeFile row parameters draft') := by
  intro r h hcurrent
  obtain ⟨name, assignments, inner, body, htarget, hopen, hfile, hbody, hstatement⟩ :=
    includeFile_eq_ok_iff.mp h
  -- the included file has been read, so it is current and can be opened again
  have hinner : inner.Current now.memory :=
    hcurrent inner (hgrows hbody (List.mem_append_right _ (List.mem_singleton_self _)))
  obtain ⟨inner', hopen', htwin⟩ := openSource_again hbefore hnow hopen hinner
  obtain ⟨r', hr', halike⟩ := hnested htwin hfile hd _ hbody hcurrent
  have hfile' : ∀ file, inner'.fileName? = some file → file ∉ p.opened :=
    fun file hname => hfile file (htwin.fileName?_eq.trans hname)
  refine ⟨(.inlined assignments r'.1, r'.2), ?_, ?_, halike.draft⟩
  · exact includeFile_eq_ok_iff.mpr
      ⟨name, assignments, inner', r'.1, htarget, hopen', hfile', hr', rfl⟩
  · rw [hstatement]
    exact .inlined assignments halike.body

/-- Items go well again, if what they include does. -/
theorem addAll_local {m : MemoryFiles} (hallows : R.Allows p.config)
    (hgrows : (p.among before n).Grows)
    (hinclude : ∀ row parameters {draft draft' : Draft}, Draft.Alike R draft draft' →
      GoesAgain R m ((p.among before n).includeFile row parameters draft)
        ((p.among now n').includeFile row parameters draft'))
    {items : List Item} {b b' : Blocks} {draft draft' : Draft} (hb : Blocks.Alike R b b')
    (hd : Draft.Alike R draft draft') {r : Blocks × Draft}
    (h : (p.among before n).addAll b draft items = .ok r)
    (hcurrent : ∀ s ∈ r.2.sources, s.Current m) :
    ∃ r', (p.among now n').addAll b' draft' items = .ok r' ∧ ProgressAlike R r r' := by
  induction items generalizing b b' draft draft' with
  | nil =>
    rw [← Except.ok.inj h]
    exact ⟨_, rfl, hb, hd⟩
  | cons item rest ih =>
    obtain ⟨s, hs, hrest⟩ := addAll_cons_eq_ok h
    -- What is current at the end was current after the first item.
    have hmid : ∀ source ∈ s.2.sources, source.Current m :=
      fun source hsource => hcurrent source (addAll_sources hgrows hrest hsource)
    have hadd : Agree (ProgressAlike R) ((p.among before n).add b draft item)
        ((p.among now n').add b' draft' item) := by
      refine add_alike hallows hb hd item ?_
      rintro parameters row rfl
      obtain ⟨statement, hread⟩ := add_include hs
      obtain ⟨q, hq, halike⟩ := hinclude row (parameters.getD "") hd _ hread hmid
      rw [hread, hq]
      exact .ok halike
    rw [hs] at hadd
    obtain ⟨s', hs', halike⟩ := hadd.of_ok
    obtain ⟨r', hr', hprogress⟩ := ih halike.1 halike.2 hrest
    refine ⟨r', ?_, hprogress⟩
    unfold addAll
    exact bind_eq_ok_iff.mpr ⟨s', hs', hr'⟩

/-- The items of a file go well again, if what they include does. -/
theorem parseItems_local {m : MemoryFiles} (hallows : R.Allows p.config)
    (hgrows : (p.among before n).Grows)
    (hinclude : ∀ row parameters {draft draft' : Draft}, Draft.Alike R draft draft' →
      GoesAgain R m ((p.among before n).includeFile row parameters draft)
        ((p.among now n').includeFile row parameters draft'))
    {draft draft' : Draft} (hd : Draft.Alike R draft draft') (items : List Item) :
    -- all items are read as before, so the file ends with the blocks that it ended with
    GoesAgain R m ((p.among before n).parseItems draft items)
      ((p.among now n').parseItems draft' items) := by
  intro r h hcurrent
  obtain ⟨s, hs, hdraft⟩ := parseItems_eq_ok h
  rw [hdraft] at hcurrent
  obtain ⟨s', hs', halike⟩ := addAll_local hallows hgrows hinclude .empty hd hs hcurrent
  have hall : Agree (ProgressAlike R) ((p.among before n).addAll {} draft items)
      ((p.among now n').addAll {} draft' items) := by
    rw [hs, hs']
    exact .ok halike
  have hread := parseItems_of_addAll hall
  rw [h] at hread
  exact hread.of_ok

end Parsing

/-- **Parsing depends on what was read.** If a file was parsed among earlier files and all sources
that were read are current, parsing it now gives an alike result. -/
theorem parseFile_local (hbefore : before.storage = .memory) (hnow : now.storage = .memory)
    (hallows : R.Allows config) (htwin : ∀ {s s'}, s.Twin s' → R.source s s') (depth : Nat)
    {depth' : Nat} {opened : List String} (hroom : Roomy now.memory depth' opened)
    {source source' : Source} (hsource : source.Twin source')
    (hnew : ∀ name, source.fileName? = some name → name ∉ opened) {draft draft' : Draft}
    (hd : Draft.Alike R draft draft') :
    GoesAgain R now.memory (parseFile config before depth opened source draft)
      (parseFile config now depth' opened source' draft') := by
  -- By induction on the depth that parsing had among the earlier files. The depth that it has now
  -- may be another one, so the bound for it is not that of before: it is the room in memory.
  induction depth generalizing depth' opened source source' draft draft' with
  | zero => exact fun _ h => nomatch h
  | succ depth ih =>
    intro r h hcurrent
    obtain ⟨content, items, hcontent, hitems, hparse⟩ := parseFile_eq_ok h
    have hself : source.Current now.memory :=
      hcurrent source (parseFile_sources h (List.mem_append_right _ (List.mem_singleton_self _)))
    obtain ⟨name, hname, hkey⟩ := hself.mem_keys
    obtain ⟨depth', rfl, hinside⟩ := hroom.enter hkey (hnew name hname)
    let nested := parseFile config before depth (name :: opened)
    let nested' := parseFile config now depth' (name :: opened)
    let p : Parsing :=
      { config, files := now, file := some name, opened := name :: opened, nested := nested' }
    have hgrows : (p.among before nested).Grows := fun hn => parseFile_sources hn
    have hinclude : ∀ row parameters {draft draft' : Draft}, Draft.Alike R draft draft' →
        GoesAgain R now.memory ((p.among before nested).includeFile row parameters draft)
          ((p.among now nested').includeFile row parameters draft') :=
      fun row parameters => Parsing.includeFile_local hbefore hnow hgrows
        (fun htwin hfile hd => ih hinside htwin hfile hd) row parameters
    have hdraft : Draft.Alike R { draft with sources := draft.sources ++ [source] }
        { draft' with sources := draft'.sources ++ [source'] } :=
      ⟨hd.functions, List.rel_append hd.sources (.cons (htwin hsource) .nil), hd.next⟩
    have hname' : source'.fileName? = some name := hsource.fileName?_eq.symm.trans hname
    rw [hname] at hparse
    obtain ⟨r', hr', halike⟩ := Parsing.parseItems_local (p := p) (n := nested) hallows hgrows
      hinclude hdraft items r hparse hcurrent
    refine ⟨r', ?_, halike⟩
    have hcontent' : source'.content now = .ok content :=
      (hsource.content_eq before now).symm.trans hcontent
    unfold parseFile
    rw [hname']
    refine bind_eq_ok_iff.mpr ⟨content, hcontent', ?_⟩
    dsimp only
    rw [hitems]
    exact hr'

/-- What was compiled among earlier files from texts that are all current is compiled alike now. -/
theorem compile_local (hbefore : before.storage = .memory) (hnow : now.storage = .memory)
    (hallows : R.Allows config) (htwin : ∀ {s s'}, s.Twin s' → R.source s s')
    {source source' : Source} (hsource : source.Twin source') {first first' : Nat}
    (hsites : ∀ k, R.sites (first + k) (first' + k)) {r : Compiled × Nat}
    (h : compile config before source first = .ok r)
    (hcurrent : ∀ s ∈ r.1.sources, s.Current now.memory) :
    ∃ r', compile config now source' first' = .ok r' ∧ Compiled.Alike R r.1 r'.1 := by
  obtain ⟨q, hq, hr⟩ := bind_eq_ok_iff.mp h
  obtain rfl := Except.ok.inj hr
  -- the bound on the nesting is more than the number of names, and no file is open yet
  have hbound : now.nestingBound = now.memory.names.size + 2 := by
    unfold Files.nestingBound
    rw [hnow]
  have hroom : Roomy now.memory now.nestingBound [] := by
    refine ⟨List.nodup_nil, List.nil_subset _, ?_⟩
    rw [hbound, List.length_nil]
    omega
  have hdraft : Draft.Alike R { nextSite := first } { nextSite := first' } := ⟨.nil, .nil, hsites⟩
  obtain ⟨q', hq', halike⟩ := parseFile_local hbefore hnow hallows htwin _ hroom hsource
    (fun _ _ => List.not_mem_nil) hdraft q hq hcurrent
  exact ⟨_, bind_eq_ok_iff.mpr ⟨q', hq', rfl⟩, halike.body, halike.draft.functions,
    halike.draft.sources⟩

end Again

end Stencil
