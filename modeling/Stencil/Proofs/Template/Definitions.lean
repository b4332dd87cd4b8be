import Stencil.Proofs.Template.Grammar

/-!
# The functions that a text defines

The definitions of a template are those of its own text and, wherever an `#include` stands, those of
the included file, in the order in which they are read. They are listed here without a parser: which
definitions another one stands inside of is told by the blocks alone, by what opens one and by the
`#end` that closes one (`blocksBehind`). Includes are followed to a depth.

A file may define a function that is being defined where the file is included. Such a definition
stands inside of one of its own name, and then the name is defined twice
(`definitionsIn_repeats`).

Main definitions: `Definition`, `definitionsIn`.
Main statements: `definitionsIn_around`, `definitionsIn_repeats`.
-/

namespace Stencil

/-! ### Definitions of a text and of what it includes -/

/-- A `#define`: the name of the function, and the names of those that it stands inside of. -/
structure Definition where
  name : String
  around : List String
deriving DecidableEq, Repr

/-- The block that a tag opens, with the name of the function if it is a definition. -/
def Tag.opens? (config : Config) : Tag → Option (Option String)
  | .define name _ => some (some name)
  | .call .. => none
  | .directive id _ =>
    if id = "if" ∨ id = "for" ∨ id = "switch" then some none
    else if id ∈ builtInIds then none
    else
      match config.directives.get? id with
      | some known => if known.hasBody then some none else none
      | none => none

/-- The open blocks behind an item, the innermost first. -/
def blocksBehind (config : Config) (blocks : List (Option String)) : Item → List (Option String)
  | .text .. => blocks
  | .tag tag _ =>
    match Divider.ofTag? tag with
    | some .end => blocks.tail
    | some _ => blocks
    | none =>
      match tag.opens? config with
      | some block => block :: blocks
      | none => blocks

/-- The file that an item of a file includes. -/
def Item.included? (file : Option String) : Item → Option String
  | .tag (.directive "include" parameters) row =>
    match parseExprs file row (parameters.getD "") with
    | .ok (.const (.str name) :: _) => some (resolvePath file name)
    | _ => none
  | _ => none

/-- The definitions at an item: its own one, or those of the file that it includes. -/
def Item.definitions (file : Option String) (inside : List String → String → List Definition)
    (around : List String) (item : Item) : List Definition :=
  match item with
  | .tag (.define name _) _ => [⟨name, around⟩]
  | item =>
    match item.included? file with
    | some name => inside around name
    | none => []

/-- The definitions of items behind open blocks. -/
def definitionsAmong (config : Config) (file : Option String)
    (inside : List String → String → List Definition) (around : List String) :
    List (Option String) → List Item → List Definition
  | _, [] => []
  | blocks, item :: rest =>
    item.definitions file inside (blocks.filterMap id ++ around) ++
      definitionsAmong config file inside around (blocksBehind config blocks item) rest

/-- The items of a source. -/
def Source.items? (config : Config) (files : Files) (source : Source) : Option (List Item) :=
  match source.content files with
  | .error _ => none
  | .ok content =>
    match itemsOf config.keep content.toList with
    | .ok items => some items
    | .error _ => none

/-- The definitions of the file of a name, if it can be opened. -/
def definitionsAt (config : Config) (files : Files)
    (definitions : List String → Source → List Definition) (around : List String)
    (name : String) : List Definition :=
  match files.openSource config.settings.basePath name with
  | .ok source => definitions around source
  | .error _ => []

/-- The definitions of a source, where it stands inside of definitions already, with those of what
it includes. Includes are followed to a depth. -/
def definitionsIn (config : Config) (files : Files) :
    Nat → List String → Source → List Definition
  | 0, _, _ => []
  | depth + 1, around, source =>
    match source.items? config files with
    | none => []
    | some items =>
      definitionsAmong config source.fileName?
        (definitionsAt config files (definitionsIn config files depth)) around [] items

/-- A file that opens has the definitions of its content. -/
theorem definitionsAt_of_open {config : Config} {files : Files}
    {definitions : List String → Source → List Definition} {around : List String} {name : String}
    {source : Source} (h : files.openSource config.settings.basePath name = .ok source) :
    definitionsAt config files definitions around name = definitions around source := by
  rw [definitionsAt, h]

/-! ### What stands inside of definitions -/

/-- What an item defines stands inside of the blocks and files around the item. -/
theorem Item.definitions_around {file : Option String}
    {inside : List String → String → List Definition}
    (hinside : ∀ {around name d}, d ∈ inside around name → around ⊆ d.around)
    {around : List String} {item : Item} {d : Definition}
    (h : d ∈ item.definitions file inside around) : around ⊆ d.around := by
  unfold Item.definitions at h
  split at h
  · rw [List.mem_singleton.mp h]
    exact List.Subset.refl _
  · split at h
    · exact hinside h
    · cases h

/-- Every definition knows what its whole text stands inside of. -/
theorem definitionsAmong_around {config : Config} {file : Option String}
    {inside : List String → String → List Definition}
    (hinside : ∀ {around name d}, d ∈ inside around name → around ⊆ d.around)
    {around : List String} {blocks : List (Option String)} {items : List Item} {d : Definition}
    (h : d ∈ definitionsAmong config file inside around blocks items) : around ⊆ d.around := by
  induction items generalizing blocks with
  | nil => cases h
  | cons item rest ih =>
    rw [definitionsAmong, List.mem_append] at h
    -- the definition is one of the item, or one of the items behind it
    rcases h with h | h
    · exact List.Subset.trans (List.subset_append_right _ _)
        (Item.definitions_around hinside h)
    · exact ih h

/-- What a file defines stands inside of the files around it. -/
theorem definitionsAt_around {config : Config} {files : Files}
    {definitions : List String → Source → List Definition}
    (hdefinitions : ∀ {around source d}, d ∈ definitions around source → around ⊆ d.around)
    {around : List String} {name : String} {d : Definition}
    (h : d ∈ definitionsAt config files definitions around name) : around ⊆ d.around := by
  unfold definitionsAt at h
  split at h
  · exact hdefinitions h
  · cases h

/-- What a source defines stands inside of the definitions around it. -/
theorem definitionsIn_around {config : Config} {files : Files} {depth : Nat}
    {around : List String} {source : Source} {d : Definition}
    (h : d ∈ definitionsIn config files depth around source) : around ⊆ d.around := by
  induction depth generalizing around source d with
  | zero => cases h
  | succ depth ih =>
    unfold definitionsIn at h
    split at h
    · cases h
    · exact definitionsAmong_around (definitionsAt_around ih) h

/-- The names of definitions. -/
def namesOf (ds : List Definition) : List String := ds.map Definition.name

/-- The names of definitions, one part after the other. -/
@[simp] theorem namesOf_append (ds ds' : List Definition) :
    namesOf (ds ++ ds') = namesOf ds ++ namesOf ds' := List.map_append

/-- A definition that stands inside of one of its name stands around the whole text, or inside of a
block that is open in front of it, or there are two definitions of this name. -/
def Repeats (around : List String) (blocks : List (Option String)) (ds : List Definition) : Prop :=
  ∀ d ∈ ds, d.name ∈ d.around → d.name ∈ around ∨ some d.name ∈ blocks ∨ ¬ (namesOf ds).Nodup

/-! ### Two definitions of one name -/

/-- A block that is open behind an item was open before it, or is one that the item defines. -/
theorem mem_blocksBehind {config : Config} {file : Option String}
    {inside : List String → String → List Definition} {around : List String}
    {blocks : List (Option String)} {item : Item} {name : String}
    (h : some name ∈ blocksBehind config blocks item) :
    some name ∈ blocks ∨ name ∈ namesOf (item.definitions file inside around) := by
  unfold blocksBehind at h
  split at h
  -- a text opens nothing, a divider closes or keeps what is open, and another tag may open a block
  · exact .inl h
  · rename_i tag row
    split at h
    · exact .inl (List.mem_of_mem_tail h)
    · exact .inl h
    · split at h
      · rename_i block hblock
        rcases List.mem_cons.mp h with rfl | h
        · -- The tag opens a block that defines a function, so it is the definition.
          unfold Tag.opens? at hblock
          split at hblock
          · obtain rfl := Option.some.inj (Option.some.inj hblock)
            exact .inr (List.mem_singleton_self _)
          · cases hblock
          · split at hblock
            · cases hblock
            · split at hblock
              · cases hblock
              · split at hblock
                · split at hblock <;> cases hblock
                · cases hblock
        · exact .inl h
      · exact .inl h

theorem Item.definitions_repeats {file : Option String}
    {inside : List String → String → List Definition}
    (hinside : ∀ around name, Repeats around [] (inside around name)) (around : List String)
    (item : Item) : Repeats around [] (item.definitions file inside around) := by
  unfold Item.definitions
  split
  · intro d hd haround
    rw [List.mem_singleton.mp hd] at haround ⊢
    exact .inl haround
  · split
    -- only an item that includes a file brings definitions of its own
    · exact hinside _ _
    · exact nofun

/-- By induction on the items. -/
theorem definitionsAmong_repeats {config : Config} {file : Option String}
    {inside : List String → String → List Definition}
    (hinside : ∀ around name, Repeats around [] (inside around name)) (around : List String)
    (blocks : List (Option String)) (items : List Item) :
    Repeats around blocks (definitionsAmong config file inside around blocks items) := by
  induction items generalizing blocks with
  | nil => exact nofun
  | cons item rest ih =>
    intro d hd hself
    rw [definitionsAmong] at hd ⊢
    rw [namesOf_append, List.nodup_append]
    rcases List.mem_append.mp hd with hd | hd
    · -- The item defines it, in one of the open blocks or in what it includes.
      rcases item.definitions_repeats hinside _ d hd hself with haround | hopen | htwice
      · rcases List.mem_append.mp haround with hopen | haround
        · obtain ⟨block, hblock, hname⟩ := List.mem_filterMap.mp hopen
          exact .inr (.inl (hname ▸ hblock))
        · exact .inl haround
      · cases hopen
      · exact .inr (.inr fun h => htwice h.1)
    · -- The items behind define it, in a block that was open before or that the item opens.
      rcases ih _ d hd hself with haround | hopen | htwice
      · exact .inl haround
      · rcases mem_blocksBehind hopen with hopen | hdefined
        · exact .inr (.inl hopen)
        · have hname : d.name ∈ namesOf _ := List.mem_map.mpr ⟨d, hd, rfl⟩
          exact .inr (.inr fun h => h.2.2 d.name hdefined d.name hname rfl)
      · exact .inr (.inr fun h => htwice h.2.1)

/-- By induction on the depth. -/
theorem definitionsIn_repeats (config : Config) (files : Files) (depth : Nat)
    (around : List String) (source : Source) :
    Repeats around [] (definitionsIn config files depth around source) := by
  induction depth generalizing around source with
  | zero => exact nofun
  | succ depth ih =>
    unfold definitionsIn
    split
    · exact nofun
    · refine definitionsAmong_repeats (fun around name => ?_) around [] _
      unfold definitionsAt
      split
      -- the file that is included is nested one level less
      · exact ih around _
      · exact nofun

end Stencil
