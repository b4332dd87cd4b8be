import Mathlib.Data.List.Nodup
import Stencil.Proofs.Template.Blocks
import Stencil.Proofs.Template.Failures
import Stencil.Proofs.Template.Locality

/-!
# Functions are defined once

A definition is refused if the draft has a function of its name. But it becomes a function of the
draft only at its `#end`, and until then nothing keeps an included file from defining the same
function, which the end of the outer definition then replaces. So the functions of a template are
defined once exactly if no definition stands inside of one of the same name
(`compile_defines_once`).

While a file is parsed, the functions that are known and the definitions that are open are together
those that were there before and those that have been read (`Extends`). This is one statement for a
step of the parser, for the items of a file and for a file with all that it includes.

Main definition: `Extends`.
Main statements: `parseFile_extends`, `compile_defines_once`.
-/

namespace Stencil

/-! ### What is defined while a file is parsed -/

/-- How definitions extend the open definitions and the functions of a draft. -/
structure Extends (exact : Prop) (blocks : List (Option String)) (before : Assoc TemplateFunction)
    (blocks' : List (Option String)) (after : Assoc TemplateFunction) (ds : List Definition) :
    Prop where
  grows : ∀ {name}, before.contains name = true → after.contains name = true
  kept : ∀ {name}, some name ∈ blocks → some name ∈ blocks' ∨ after.contains name = true
  fresh : ∀ {d}, d ∈ ds → ¬ before.contains d.name = true
  added : ∀ {d}, d ∈ ds → some d.name ∈ blocks' ∨ after.contains d.name = true
  only : exact → ∀ {name}, some name ∈ blocks' ∨ after.contains name = true →
    (some name ∈ blocks ∨ before.contains name = true) ∨ name ∈ namesOf ds
  nodup : (∀ d ∈ ds, d.name ∉ d.around) →
    (namesOf ds).Nodup ∧ ∀ d ∈ ds, some d.name ∉ blocks

namespace Extends

variable {exact : Prop} {blocks blocks₁ blocks₂ : List (Option String)}
  {before middle after : Assoc TemplateFunction} {ds ds' : List Definition}

/-- One part of the items after the other extends what is known by the definitions of both. -/
theorem trans (h : Extends exact blocks before blocks₁ middle ds)
    (h' : Extends exact blocks₁ middle blocks₂ after ds') :
    Extends exact blocks before blocks₂ after (ds ++ ds') where
  grows hname := h'.grows (h.grows hname)
  kept hname := (h.kept hname).elim h'.kept fun hmiddle => .inr (h'.grows hmiddle)
  fresh {d} hd := by
    rcases List.mem_append.mp hd with hd | hd
    · exact h.fresh hd
    · exact fun hbefore => h'.fresh hd (h.grows hbefore)
  added {d} hd := by
    rcases List.mem_append.mp hd with hd | hd
    · exact (h.added hd).elim h'.kept fun hmiddle => .inr (h'.grows hmiddle)
    · exact h'.added hd
  only hexact {name} hname := by
    rw [namesOf_append, List.mem_append]
    -- a name comes from the second part, from the first, or from before
    rcases h'.only hexact hname with hmiddle | hnew
    · rcases h.only hexact hmiddle with hbefore | hnew
      · exact .inl hbefore
      · exact .inr (.inl hnew)
    · exact .inr (.inr hnew)
  nodup hapart := by
    obtain ⟨hds, hopen⟩ := h.nodup fun d hd => hapart d (List.mem_append_left _ hd)
    obtain ⟨hds', hopen'⟩ := h'.nodup fun d hd => hapart d (List.mem_append_right _ hd)
    constructor
    · -- What was defined first is open still or a function, and what is defined next is neither.
      rw [namesOf_append, List.nodup_append]
      refine ⟨hds, hds', fun name hname name' hname' hsame => ?_⟩
      obtain ⟨d, hd, rfl⟩ := List.mem_map.mp hname
      obtain ⟨d', hd', rfl⟩ := List.mem_map.mp hname'
      rcases h.added hd with hpending | hmiddle
      · exact hopen' d' hd' (hsame ▸ hpending)
      · exact h'.fresh hd' (hsame ▸ hmiddle)
    · intro d hd hpending
      -- a block open at first is open still or a function, and the second part defines neither
      rcases List.mem_append.mp hd with hd | hd
      · exact hopen d hd hpending
      · rcases h.kept hpending with hpending | hmiddle
        · exact hopen' d hd hpending
        · exact h'.fresh hd hmiddle

theorem weaken {weaker : Prop} (h : Extends exact blocks before blocks₁ after ds)
    (hexact : weaker → exact) : Extends weaker blocks before blocks₁ after ds :=
  ⟨h.grows, h.kept, h.fresh, h.added, fun hweaker => h.only (hexact hweaker), h.nodup⟩

/-- Where nothing is claimed to be complete, definitions may be left out. -/
theorem forget (h : Extends False [] before [] after ds) : Extends False [] before [] after [] where
  grows := h.grows
  kept := nofun
  fresh := nofun
  added := nofun
  only := nofun
  nodup _ := ⟨List.nodup_nil, nofun⟩

/-- Blocks that define nothing may open and close. -/
theorem of_blocks (hblocks : ∀ {name}, some name ∈ blocks ↔ some name ∈ blocks₁) :
    Extends exact blocks before blocks₁ before [] where
  grows := id
  kept hname := .inl (hblocks.mp hname)
  fresh := nofun
  added := nofun
  only _ _ hname := .inl (hname.imp_left hblocks.mpr)
  nodup _ := ⟨List.nodup_nil, nofun⟩

/-- The definition of a new function begins, outside of all blocks. -/
theorem opened (exact : Prop) {name : String} {around : List String}
    (hname : ¬ before.contains name = true) :
    Extends exact [] before [some name] before [⟨name, around⟩] where
  grows := id
  kept := nofun
  fresh hd := List.mem_singleton.mp hd ▸ hname
  added hd := .inl (List.mem_singleton.mp hd ▸ List.mem_singleton_self _)
  only _ {other} hother := by
    rcases hother with hopened | hbefore
    · exact .inr (List.mem_singleton.mpr (Option.some.inj (List.mem_singleton.mp hopened)))
    · exact .inl (.inr hbefore)
  nodup _ := ⟨List.pairwise_singleton _ _, nofun⟩

/-- A definition ends, and its function is known. -/
theorem closed (exact : Prop) (blocks : List (Option String)) (name : String)
    (f : TemplateFunction) :
    Extends exact (some name :: blocks) before blocks (before.insert name f) [] where
  grows hbefore := (Assoc.contains_insert ..).mpr (.inr hbefore)
  kept {other} hother := by
    -- the definition that ends is a function now, and the other blocks are open still
    rcases List.mem_cons.mp hother with heq | hrest
    · exact .inr ((Assoc.contains_insert ..).mpr (.inl (Option.some.inj heq)))
    · exact .inl hrest
  fresh := nofun
  added := nofun
  only _ {other} hother := by
    rw [Assoc.contains_insert] at hother
    -- what is open or known was so before, the new function as an open definition
    rcases hother with hrest | rfl | hbefore
    · exact .inl (.inl (List.mem_cons_of_mem _ hrest))
    · exact .inl (.inl (List.mem_cons_self ..))
    · exact .inl (.inr hbefore)
  nodup _ := ⟨List.nodup_nil, nofun⟩

/-- A file is included, whatever blocks are open around it. -/
theorem around (h : Extends exact [] before [] after ds)
    (haround : ∀ d ∈ ds, blocks.filterMap id ⊆ d.around) :
    Extends exact blocks before blocks after ds where
  grows := h.grows
  kept := .inl
  fresh := h.fresh
  added hd := .inr ((h.added hd).resolve_left nofun)
  only hexact {name} hname := by
    -- blocks around the file stay open, and what the file leaves open is nothing
    rcases hname with hpending | hafter
    · exact .inl (.inl hpending)
    · rcases h.only hexact (.inr hafter) with hbefore | hnew
      · exact .inl (.inr (hbefore.resolve_left nofun))
      · exact .inr hnew
  nodup hapart := by
    -- a definition of the file has the blocks around it, so its name may not be among theirs
    refine ⟨(h.nodup hapart).1, fun d hd hpending => hapart d hd (haround d hd ?_)⟩
    exact List.mem_filterMap.mpr ⟨_, hpending, rfl⟩

end Extends

/-- A divider begins no definition, and may end one. -/
theorem Turned.extends {divider : Divider} {blocks blocks' : List (Option String)}
    {known known' : Assoc TemplateFunction} (h : Turned divider blocks known blocks' known')
    (exact : Prop) : blocks' = (if divider = .end then blocks.tail else blocks) ∧
      Extends exact blocks known blocks' known' [] := by
  cases h with
  | part hdivider => exact ⟨(if_neg hdivider).symm, .of_blocks .rfl⟩
  | close hdivider => exact ⟨(if_pos hdivider).symm, .of_blocks (by simp)⟩
  | define hdivider => exact ⟨(if_pos hdivider).symm, .closed ..⟩

/-! ### Steps of the parser -/

namespace Parsing

variable {p : Parsing} {b : Blocks} {draft : Draft} {exact : Prop}

/-- An item that is neither a definition nor an `#include` defines nothing. -/
theorem definitions_eq_nil {file : Option String} {inside : List String → String → List Definition}
    {around : List String} {tag : Tag} {row : Nat}
    (hdefine : ∀ name parameters, tag ≠ .define name parameters)
    (hinclude : ∀ parameters, tag ≠ .directive "include" parameters) :
    (Item.tag tag row).definitions file inside around = [] := by
  unfold Item.definitions
  split
  · rename_i heq
    cases heq
    exact absurd rfl (hdefine _ _)
  · have hincluded : (Item.tag tag row).included? file = none := by
      unfold Item.included?
      split
      · rename_i heq
        cases heq
        exact absurd rfl (hinclude _)
      · rfl
    rw [hincluded]

/-- Directives of different names are different tags. -/
theorem directive_ne {id other : String} {parameters : Option String} (h : id ≠ other)
    (parameters' : Option String) : Tag.directive id parameters ≠ .directive other parameters' :=
  fun heq => h (Tag.directive.inj heq).1

/-- What an `#include` that goes well defines. -/
theorem definitions_include {p : Parsing} {inside : List String → String → List Definition}
    {around : List String} {parameters : Option String} {row : Nat} {name : String}
    {assignments : List Expr}
    (h : p.target row (parameters.getD "") "#include" = .ok (name, assignments)) :
    (Item.tag (.directive "include" parameters) row).definitions p.file inside around =
      inside around name := by
  unfold Item.definitions
  dsimp only
  rw [included?_of_target h]

/-- A tag that is a statement by itself closes and opens no block, and is no definition. -/
theorem Simple.tag {nesting : Nesting} {row : Nat} {tag : Tag} {s : Statement} {draft' : Draft}
    (h : p.Simple nesting draft row tag s draft') :
    Divider.ofTag? tag = none ∧ tag.opens? p.config = none ∧
      ∀ name parameters, tag ≠ .define name parameters := by
  cases h with
  | @custom id parameters directive _ hforeign hfound hbody =>
    refine ⟨hforeign.1, ?_, nofun⟩
    -- a custom directive is none of those that open blocks
    have hblock : ¬ (id = "if" ∨ id = "for" ∨ id = "switch") := by
      rintro (rfl | rfl | rfl) <;> exact hforeign.2 (by decide)
    rw [Tag.opens?, if_neg hblock, if_neg hforeign.2, hfound]
    simp [hbody]
  | @assign id parameters _ _ hpolicy =>
    unfold policyOf? at hpolicy
    split at hpolicy
    all_goals cases hpolicy
    all_goals exact ⟨by cases parameters <;> rfl, rfl, nofun⟩
  | @output parameters | @inlined parameters | @render parameters | @call parameters
  | @callIfDefined parameters | @leave parameters | @resume parameters | @finish parameters =>
    exact ⟨by cases parameters <;> rfl, rfl, nofun⟩
  -- all the others are known by their names
  | callByName => exact ⟨rfl, rfl, nofun⟩

/-- A tag that is a statement by itself has the definitions of what it includes. -/
theorem Simple.extends {inside : List String → String → List Definition}
    (hinside : ∀ {around name source draft r},
      p.files.openSource p.config.settings.basePath name = .ok source →
      p.nested source draft = .ok r →
      Extends exact [] draft.functions [] r.2.functions (inside around name))
    (haround : ∀ {around name d}, d ∈ inside around name → around ⊆ d.around)
    {nesting : Nesting} {row : Nat} {tag : Tag} {s : Statement} {draft' : Draft}
    (h : p.Simple nesting draft row tag s draft') (blocks : List (Option String))
    (around : List String) :
    Extends exact blocks draft.functions blocks draft'.functions
      ((Item.tag tag row).definitions p.file inside (blocks.filterMap id ++ around)) := by
  have hdefine := h.tag.2.2
  cases h with
  -- the definitions of the included file, for which the blocks of this one are around it
  | inlined h =>
    obtain ⟨name, assignments, source, body, htarget, hopen, -, hnested, -⟩ :=
      includeFile_eq_ok_iff.mp h
    rw [definitions_include htarget]
    exact (hinside hopen hnested).around fun d hd =>
      List.Subset.trans (List.subset_append_left _ _) (haround hd)
  -- nothing else that is a statement by itself includes a file
  | @assign id _ _ _ hpolicy =>
    have hid : id ≠ "include" := by
      rintro rfl
      cases hpolicy
    rw [definitions_eq_nil hdefine (directive_ne hid)]
    exact .of_blocks .rfl
  | @custom id _ _ _ hforeign =>
    have hid : id ≠ "include" := by
      rintro rfl
      exact hforeign.2 (by decide)
    rw [definitions_eq_nil hdefine (directive_ne hid)]
    exact .of_blocks .rfl
  | callByName =>
    rw [definitions_eq_nil hdefine nofun]
    exact .of_blocks .rfl
  | output | render | call | callIfDefined | leave | resume | finish =>
    rw [definitions_eq_nil hdefine (directive_ne (by decide))]
    exact .of_blocks .rfl

/-- A tag that opens a block begins a definition, or a block that defines nothing. -/
theorem Opens.extends {b : Blocks} {row : Nat} {tag : Tag} {opener : Opener}
    (h : p.Opens (nestingIn b.stack) draft row tag opener) (exact : Prop)
    (inside : List String → String → List Definition) (around : List String) :
    (Divider.ofTag? tag = none ∧ tag.opens? p.config = some opener.defines?) ∧
      Extends exact b.opened draft.functions (opener.defines? :: b.opened) draft.functions
        ((Item.tag tag row).definitions p.file inside around) := by
  have hblock : ∀ {name : String}, some name ∈ b.opened ↔ some name ∈ none :: b.opened := by simp
  cases h with
  -- a definition stands outside all blocks, so it is the only open one
  | @define name parameters names htop hname =>
    have hopened : b.opened = [] := by
      rw [Blocks.opened, nestingIn_eq_top_iff.mp htop]
      rfl
    rw [hopened]
    exact ⟨⟨rfl, rfl⟩, .opened exact (by simp [hname])⟩
  -- the other blocks define nothing
  | @condition parameters | @loop parameters | @switch parameters =>
    exact ⟨⟨by cases parameters <;> rfl, rfl⟩, .of_blocks hblock⟩
  | @custom id parameters directive args hforeign hfound hbody =>
    have hbuiltIn : ¬ (id = "if" ∨ id = "for" ∨ id = "switch") := by
      rintro (rfl | rfl | rfl) <;> exact hforeign.2 (by decide)
    have hid : id ≠ "include" := by
      rintro rfl
      exact hforeign.2 (by decide)
    have hdefine : ∀ name names, Tag.directive id parameters ≠ .define name names := nofun
    rw [definitions_eq_nil hdefine (directive_ne hid)]
    refine ⟨⟨hforeign.1, ?_⟩, .of_blocks hblock⟩
    rw [Tag.opens?, if_neg hbuiltIn, if_neg hforeign.2, hfound]
    simp [hbody, Opener.defines?]

/-- **One item.** -/
theorem Step.extends {inside : List String → String → List Definition}
    (hinside : ∀ {around name source draft r},
      p.files.openSource p.config.settings.basePath name = .ok source →
      p.nested source draft = .ok r →
      Extends exact [] draft.functions [] r.2.functions (inside around name))
    (haround : ∀ {around name d}, d ∈ inside around name → around ⊆ d.around)
    {item : Item} {r : Blocks × Draft} (h : p.Step b draft item r) (around : List String) :
    r.1.opened = blocksBehind p.config b.opened item ∧
      Extends exact b.opened draft.functions r.1.opened r.2.functions
        (item.definitions p.file inside (b.opened.filterMap id ++ around)) := by
  cases h with
  | blank | text => exact ⟨rfl, .of_blocks .rfl⟩
  -- a divider defines nothing and includes nothing, so only its effect on the open blocks matters
  | @divide tag row divider _ hdivider hr =>
    obtain ⟨hopened, hextends⟩ := ((divide_ends row divider).of_ok hr).extends exact
    have hdefine : ∀ name parameters, tag ≠ .define name parameters := by
      rintro name parameters rfl
      cases hdivider
    have hinclude : ∀ parameters, tag ≠ .directive "include" parameters := by
      rintro (_ | _) rfl <;> cases hdivider
    rw [definitions_eq_nil hdefine hinclude]
    refine ⟨hopened.trans ?_, hextends⟩
    rw [blocksBehind, hdivider]
    cases divider <;> rfl
  -- the open blocks stay, and what is included is all that is defined
  | @simple tag row s draft' _ hsimple =>
    refine ⟨?_, hsimple.extends hinside haround b.opened around⟩
    obtain ⟨hdivider, hopens, -⟩ := hsimple.tag
    rw [blocksBehind, hdivider]
    dsimp only
    rw [hopens]
    rfl
  -- the block that the tag opens is the one that its tag says
  | @opens tag row opener _ hopens =>
    obtain ⟨⟨hdivider, hblock⟩, hextends⟩ := hopens.extends exact inside
      (b.opened.filterMap id ++ around)
    refine ⟨?_, hextends⟩
    rw [blocksBehind, hdivider]
    dsimp only
    rw [hblock]
    rfl

/-- **The items of a file.** By induction on the items. -/
theorem addAll_extends {inside : List String → String → List Definition}
    (hinside : ∀ {around name source draft r},
      p.files.openSource p.config.settings.basePath name = .ok source →
      p.nested source draft = .ok r →
      Extends exact [] draft.functions [] r.2.functions (inside around name))
    (haround : ∀ {around name d}, d ∈ inside around name → around ⊆ d.around)
    {items : List Item} {r : Blocks × Draft} (h : p.addAll b draft items = .ok r)
    (around : List String) :
    Extends exact b.opened draft.functions r.1.opened r.2.functions
      (definitionsAmong p.config p.file inside around b.opened items) := by
  induction items generalizing b draft with
  | nil =>
    rw [← Except.ok.inj h]
    exact .of_blocks .rfl
  | cons item rest ih =>
    obtain ⟨s, hadd, hrest⟩ := addAll_cons_eq_ok h
    obtain ⟨hopened, hitem⟩ := (step_of_add hadd).extends hinside haround around
    rw [definitionsAmong, ← hopened]
    exact hitem.trans (ih hrest)

/-- A file that goes well leaves no block open. -/
theorem parseItems_closed {items : List Item} {r : Statement × Draft}
    (h : p.parseItems draft items = .ok r) :
    ∃ s, p.addAll {} draft items = .ok s ∧ s.1.opened = [] ∧ r.2 = s.2 := by
  obtain ⟨⟨b, draft⟩, hs, h⟩ := bind_eq_ok_iff.mp h
  dsimp only at h
  split at h
  · rename_i hstack
    refine ⟨_, hs, ?_, by rw [← Except.ok.inj h]⟩
    rw [Blocks.opened, hstack]
    rfl
  · cases h

end Parsing

/-- **Files with what they include.** By induction on the nesting of the files. The definitions of
a source are complete if its includes are followed as far as the parser follows them. -/
theorem parseFile_extends {config : Config} {files : Files} {depth : Nat} {opened : List String}
    {source : Source} {draft : Draft} {r : Statement × Draft}
    (h : parseFile config files depth opened source draft = .ok r) (depth' : Nat)
    (around : List String) :
    Extends (depth ≤ depth') [] draft.functions [] r.2.functions
      (definitionsIn config files depth' around source) := by
  induction depth generalizing depth' around opened source draft r with
  | zero => cases h
  | succ depth ih =>
    obtain ⟨content, items, hcontent, hitems, hparse⟩ := parseFile_eq_ok h
    obtain ⟨s, hadd, hclosed, hdraft⟩ := Parsing.parseItems_closed hparse
    rw [hdraft]
    cases depth' with
    | zero =>
      -- No definitions are listed, which only says that functions stay functions.
      have hall := @Parsing.addAll_extends _ _ _ False (fun _ _ => [])
        (fun _ hnested => (ih hnested 0 []).weaken nofun) nofun _ _ hadd around
      rw [hclosed] at hall
      exact hall.forget.weaken (by omega)
    | succ depth' =>
      have hsource : source.items? config files = some items := by
        rw [Source.items?, hcontent]
        dsimp only
        rw [hitems]
      have hinside : ∀ {around name inner draft r},
          files.openSource config.settings.basePath name = .ok inner →
          parseFile config files depth (source.fileName?.toList ++ opened) inner draft = .ok r →
          Extends (depth + 1 ≤ depth' + 1) [] draft.functions [] r.2.functions
            (definitionsAt config files (definitionsIn config files depth') around name) := by
        intro around name inner draft r hopen hnested
        rw [definitionsAt_of_open hopen]
        exact (ih hnested depth' around).weaken (by omega)
      have hall := Parsing.addAll_extends hinside (definitionsAt_around definitionsIn_around) hadd
        around
      rw [hclosed] at hall
      rw [definitionsIn, hsource]
      exact hall

/-! ### Compilations -/

/-- A compilation that goes well defines the functions of its source. -/
theorem compile_extends {config : Config} {files : Files} {source : Source} {first : Nat}
    {r : Compiled × Nat} (h : compile config files source first = .ok r) (depth : Nat) :
    Extends (files.nestingBound ≤ depth) [] .empty [] r.1.functions
      (definitionsIn config files depth [] source) := by
  obtain ⟨q, hparse, hr⟩ := bind_eq_ok_iff.mp h
  rw [← Except.ok.inj hr]
  exact parseFile_extends hparse depth []

/-- **Functions are defined once, except inside of their own definitions.** Take any source and any
files, and the definitions of the source with those of all that it includes.

* After a compilation that goes well, the template has exactly the functions that are defined. Each
  of them is defined once exactly if no definition stands inside of one of the same name.
* If two definitions have one name, and none stands inside of one of the same name, the compilation
  fails: with a parse error, unless something that is included cannot be opened or read. -/
theorem compile_defines_once (config : Config) (files : Files) (source : Source) (first : Nat) :
    (∀ unit next, compile config files source first = .ok (unit, next) →
      ∀ depth, files.nestingBound ≤ depth →
        let definitions := definitionsIn config files depth [] source
        (∀ name, unit.functions.contains name = true ↔ name ∈ namesOf definitions) ∧
        ((∀ name, unit.functions.contains name = true → (namesOf definitions).count name = 1) ↔
          ∀ d ∈ definitions, d.name ∉ d.around)) ∧
    ∀ depth,
      let definitions := definitionsIn config files depth [] source
      ¬ (namesOf definitions).Nodup → (∀ d ∈ definitions, d.name ∉ d.around) →
        ∃ e, compile config files source first = .error e ∧
          (e.IsParse ∨ Unreadable config files e source) := by
  constructor
  · intro unit next hok depth hdepth definitions
    have h := compile_extends hok depth
    have hiff : ∀ name, unit.functions.contains name = true ↔ name ∈ namesOf definitions := by
      -- a name that is known is new, for nothing is known at first
      intro name
      constructor
      · intro hname
        rcases h.only hdepth (.inr hname) with (hopen | hbefore) | hnew
        · cases hopen
        · cases hbefore
        · exact hnew
      · intro hname
        obtain ⟨d, hd, rfl⟩ := List.mem_map.mp hname
        exact (h.added hd).resolve_left nofun
    refine ⟨hiff, fun honce d hd hself => ?_, fun hapart name hname => ?_⟩
    · -- Every name stands for a function, so none of them is there twice.
      have hnodup : (namesOf definitions).Nodup := by
        rw [List.nodup_iff_count_eq_one]
        exact fun name hname => honce name ((hiff name).mpr hname)
      rcases definitionsIn_repeats config files depth [] source d hd hself with
        haround | hopen | htwice
      · cases haround
      · cases hopen
      · exact htwice hnodup
    · exact List.count_eq_one_of_mem (h.nodup hapart).1 ((hiff name).mp hname)
  -- if the source compiled, its definitions would have no duplicates
  · intro depth definitions htwice hapart
    cases hcompile : compile config files source first with
    | ok r => exact absurd ((compile_extends hcompile depth).nodup hapart).1 htwice
    | error e => exact ⟨e, rfl, (compile_ends config files source first).of_error hcompile⟩

/-- A file that is included in a definition of another name, and behind one of the same name. -/
theorem compile_defines_once_included :
    let files : Files :=
      { storage := .memory, memory := MemoryFiles.insert {} "g" "#define h()inner#end" }
    let inside : Source := .string "#define f()#include('g')outer#end" false
    let behind : Source := .string "#define h()outer#end#include('g')" false
    (∃ unit next, compile {} files inside 0 = .ok (unit, next) ∧
      ∀ name, unit.functions.contains name = true →
        (namesOf (definitionsIn {} files files.nestingBound [] inside)).count name = 1) ∧
    ∃ e, compile {} files behind 0 = .error e ∧ (e.IsParse ∨ Unreadable {} files e behind) := by
  intro files inside behind
  constructor
  · have hok : (compile {} files inside 0).isOk = true := by decide +kernel
    have hapart : ∀ d ∈ definitionsIn {} files files.nestingBound [] inside,
        d.name ∉ d.around := by
      decide +kernel
    cases hcompile : compile {} files inside 0 with
    | error e =>
      rw [hcompile] at hok
      cases hok
    | ok r =>
      have honce := (compile_defines_once {} files inside 0).1 r.1 r.2 hcompile _ (Nat.le_refl _)
      exact ⟨r.1, r.2, rfl, honce.2.mpr hapart⟩
  · have hnames : namesOf (definitionsIn {} files 2 [] behind) = ["h", "h"] := by decide +kernel
    have hapart : ∀ d ∈ definitionsIn {} files 2 [] behind, d.name ∉ d.around := by decide +kernel
    exact (compile_defines_once {} files behind 0).2 2 (by rw [hnames]; decide) hapart

/-- A file that defines the function that is being defined where it is included. -/
theorem not_compile_defines_once :
    ¬ ∀ (config : Config) (files : Files) (source : Source) (first : Nat),
      (∀ unit next, compile config files source first = .ok (unit, next) →
        ∀ depth, files.nestingBound ≤ depth → ∀ name, unit.functions.contains name = true →
          (namesOf (definitionsIn config files depth [] source)).count name = 1) ∧
      ∀ depth, ¬ (namesOf (definitionsIn config files depth [] source)).Nodup →
        ∃ fault, compile config files source first = .error (.parse fault) := by
  intro hall
  let files : Files :=
    { storage := .memory, memory := MemoryFiles.insert {} "g" "#define f()inner#end" }
  let source : Source := .string "#define f()#include('g')outer#end" false
  obtain ⟨-, htwice⟩ := hall {} files source 0
  have hnames : namesOf (definitionsIn {} files 2 [] source) = ["f", "f"] := by decide +kernel
  have hok : (compile {} files source 0).isOk = true := by decide +kernel
  obtain ⟨fault, herror⟩ := htwice 2 (by rw [hnames]; decide)
  rw [herror] at hok
  cases hok

end Stencil
