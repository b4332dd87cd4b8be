import Mathlib.Data.List.Induction
import Stencil.Source.Files

/-!
# What is found in memory

Files in memory are stored and removed under the names that are given, and looked up under the name
without the slashes at its front. So what is opened for a name is the text that was last stored
under the name without these slashes, in whatever order texts were stored, replaced and removed
(`openSource_after`).

A text is stored in the entry of its name. Since no two names share an entry
(`MemoryFiles.Apart`), storing and removing touch the text of one name only
(`MemoryFiles.Apart.text?_insert`, `MemoryFiles.text?_remove`).

Main definitions: `MemoryFiles.after`, `MemoryFiles.Stored`. Main statement: `openSource_after`.
-/

namespace Stencil

namespace MemoryFiles

/-! ### The text of a name -/

/-- The text that a name leads to. -/
def text? (m : MemoryFiles) (name : String) : Option String :=
  (m.entryOf? name).map fun entry => entry.2.content

/-- The text that a name leads to is that of its entry. -/
theorem text?_eq (m : MemoryFiles) (name : String) :
    m.text? name = (m.names.get? name).bind fun i => m.entries[i]?.map MemoryEntry.content := by
  cases hname : m.names.get? name with
  | none => simp [text?, entryOf?, hname]
  | some i => cases hentry : m.entries[i]? <;> simp [text?, entryOf?, hname, hentry]

/-- Every name has an entry, and no two names share one. -/
structure Apart (m : MemoryFiles) : Prop where
  inBounds : ∀ {name i}, m.names.get? name = some i → i < m.entries.size
  apart : ∀ {name other i}, m.names.get? name = some i → m.names.get? other = some i →
    name = other

/-- No names share an entry where there are none. -/
theorem apart_empty : Apart {} where
  inBounds h := by cases h
  apart h := by cases h

/-- Names still have entries of their own when one is removed. -/
theorem Apart.remove {m : MemoryFiles} (h : m.Apart) (name : String) : (m.remove name).Apart := by
  have hkept {other : String} {i : Nat} (hget : (m.remove name).names.get? other = some i) :
      m.names.get? other = some i := by
    rw [MemoryFiles.remove, Assoc.get?_erase] at hget
    split at hget
    · cases hget
    · exact hget
  exact ⟨fun hget => h.inBounds (hkept hget), fun hget hget' => h.apart (hkept hget) (hkept hget')⟩

/-- Removing a name takes its text away and no other one. -/
theorem text?_remove (m : MemoryFiles) (name other : String) :
    (m.remove name).text? other = if other = name then none else m.text? other := by
  rw [text?_eq, text?_eq, MemoryFiles.remove, Assoc.get?_erase]
  split <;> rfl

/-- So have they when a text is stored. -/
theorem Apart.insert {m : MemoryFiles} (h : m.Apart) (name content : String) :
    (m.insert name content).Apart := by
  unfold MemoryFiles.insert
  cases hname : m.names.get? name with
  | some i => exact ⟨fun hget => by simpa using h.inBounds hget, h.apart⟩
  | none =>
    -- The new name has the last entry, and all other names have entries in front of it.
    have hget (other : String) : (m.names.insert name m.entries.size).get? other =
        if other = name then some m.entries.size else m.names.get? other := Assoc.get?_insert ..
    constructor
    · intro other i hother
      rw [hget] at hother
      rw [Array.size_push]
      split at hother
      · cases hother
        exact Nat.lt_succ_self _
      · exact Nat.lt_succ_of_lt (h.inBounds hother)
    · intro a b i ha hb
      rw [hget] at ha hb
      split at ha <;> split at hb
      · rename_i ha' hb'
        rw [ha', hb']
      · cases ha
        exact absurd (h.inBounds hb) (Nat.lt_irrefl _)
      · cases hb
        exact absurd (h.inBounds ha) (Nat.lt_irrefl _)
      · exact h.apart ha hb

/-- Storing a text under a name changes the text of this name and no other one. -/
theorem Apart.text?_insert {m : MemoryFiles} (h : m.Apart) (name content other : String) :
    (m.insert name content).text? other =
      if other = name then some content else m.text? other := by
  rw [text?_eq, text?_eq]
  unfold MemoryFiles.insert
  -- a name that has an entry keeps it, with another text, and a new name gets a new entry
  cases hname : m.names.get? name with
  | some i =>
    dsimp only
    by_cases heq : other = name
    · rw [if_pos heq, heq, hname, Option.bind_some, Array.getElem?_modify, if_pos rfl,
        Array.getElem?_eq_getElem (h.inBounds hname)]
      rfl
    · rw [if_neg heq]
      refine Option.bind_congr fun j hother => ?_
      -- another name has another entry
      have hij : i ≠ j := by
        rintro rfl
        exact heq (h.apart hother hname)
      rw [Array.getElem?_modify, if_neg hij]
  | none =>
    dsimp only
    rw [Assoc.get?_insert]
    by_cases heq : other = name
    · rw [if_pos heq, if_pos heq, Option.bind_some, Array.getElem?_push_size]
      rfl
    · rw [if_neg heq, if_neg heq]
      refine Option.bind_congr fun j hother => ?_
      have hj := h.inBounds hother
      rw [Array.getElem?_push_lt hj, Array.getElem?_eq_getElem hj]

/-! ### Histories -/

/-- What is done to files in memory. -/
inductive Act
  | insert (name content : String)
  | remove (name : String)
deriving DecidableEq, Repr

/-- The name that something is done to. -/
def Act.name : Act → String
  | insert name _ | remove name => name

/-- The files behind an act. -/
def Act.apply (m : MemoryFiles) : Act → MemoryFiles
  | insert name content => m.insert name content
  | remove name => m.remove name

/-- The files behind a history that begins without files. -/
def after (acts : List Act) : MemoryFiles := acts.foldl Act.apply {}

theorem after_concat (acts : List Act) (act : Act) :
    after (acts ++ [act]) = act.apply (after acts) :=
  List.foldl_append ..

/-- After any acts names have entries of their own. -/
theorem apart_after (acts : List Act) : (after acts).Apart := by
  induction acts using List.reverseRecOn with
  | nil => exact apart_empty
  | append_singleton acts act ih =>
    rw [after_concat]
    cases act with
    | insert name content => exact ih.insert name content
    | remove name => exact ih.remove name

/-- Whether a text was stored under a name, and nothing has been done to this name since. -/
def Stored (acts : List Act) (name content : String) : Prop :=
  ∃ before later, acts = before ++ .insert name content :: later ∧ ∀ act ∈ later, act.name ≠ name

/-- What is stored after one act more: by this act, or before and under another name. -/
theorem stored_concat {acts : List Act} {act : Act} {name content : String} :
    Stored (acts ++ [act]) name content ↔
      act = .insert name content ∨ act.name ≠ name ∧ Stored acts name content := by
  constructor
  -- the acts behind the storing are none, or end with the new one
  · rintro ⟨before, later, heq, hlater⟩
    rcases List.eq_nil_or_concat later with rfl | ⟨later, last, rfl⟩
    · exact .inl (List.append_inj_right' heq rfl |> List.singleton_inj.1)
    · rw [List.concat_eq_append, ← List.cons_append, ← List.append_assoc] at heq
      obtain ⟨hacts, hact⟩ := List.append_inj' heq rfl
      obtain rfl := List.singleton_inj.1 hact
      refine .inr ⟨hlater act (by simp), before, later, hacts, fun a ha => hlater a ?_⟩
      simp [ha]
  · rintro (rfl | ⟨hne, before, later, rfl, hlater⟩)
    · exact ⟨acts, [], rfl, List.forall_mem_nil _⟩
    · refine ⟨before, later ++ [act], by simp, fun a ha => ?_⟩
      rcases List.mem_append.1 ha with ha | ha
      · exact hlater a ha
      · rwa [List.mem_singleton.1 ha]

/-- **What a name leads to** is the text that was stored under it last. -/
theorem text?_after (acts : List Act) (name content : String) :
    (after acts).text? name = some content ↔ Stored acts name content := by
  -- by induction on the acts, from the last one on
  induction acts using List.reverseRecOn with
  | nil =>
    constructor
    · intro h
      cases h
    · rintro ⟨before, later, heq, -⟩
      exact absurd heq (by simp)
  | append_singleton acts act ih =>
    rw [after_concat, stored_concat, ← ih]
    cases act with
    | insert stored text =>
      show ((after acts).insert stored text).text? name = _ ↔ _
      rw [(apart_after acts).text?_insert]
      -- the act is about the name in question, or about another one
      by_cases heq : name = stored
      · subst heq
        simp [Act.name]
      · simp [Act.name, heq, Ne.symm heq]
    | remove removed =>
      show ((after acts).remove removed).text? name = _ ↔ _
      rw [text?_remove]
      by_cases heq : name = removed
      · simp [Act.name, heq]
      · simp [Act.name, heq, Ne.symm heq]

end MemoryFiles

open MemoryFiles

/-- **What is opened is what was stored**, under the name without the slashes at its front, and
otherwise there is no template. -/
theorem openSource_after (acts : List Act) (disk : Disk) (basePath : Option String)
    (name : String) :
    let files : Files := { storage := .memory, memory := after acts, disk := disk }
    (∀ content, Stored acts (withoutSlashes name) content →
      ∃ source, files.openSource basePath name = .ok source ∧
        source.content files = .ok content) ∧
    ((∀ content, ¬ Stored acts (withoutSlashes name) content) →
      files.openSource basePath name = .error (.missingTemplate name)) := by
  intro files
  have hopen : files.openSource basePath name = files.openMemory name := rfl
  rw [hopen, Files.openMemory]
  constructor
  · intro content hstored
    have htext := (text?_after acts (withoutSlashes name) content).2 hstored
    obtain ⟨⟨i, entry⟩, hentry, hcontent⟩ := Option.map_eq_some_iff.1 htext
    rw [show files.memory.entryOf? (withoutSlashes name) = some (i, entry) from hentry]
    exact ⟨_, rfl, congrArg Except.ok hcontent⟩
  · intro hnone
    have hentry : files.memory.entryOf? (withoutSlashes name) = none := by
      rw [← Option.map_eq_none_iff, Option.eq_none_iff_forall_ne_some]
      exact fun content htext => hnone content ((text?_after acts _ content).1 htext)
    rw [hentry]

/-- A text that was replaced, a name with a slash in front, and a name that was removed. -/
theorem openSource_after_replaced :
    let acts : List Act :=
      [.insert "b" "0", .insert "a" "1", .remove "b", .insert "a" "2", .insert "c" "3"]
    let files : Files := { storage := .memory, memory := after acts }
    (∃ source, files.openSource none "/a" = .ok source ∧ source.content files = .ok "2") ∧
      files.openSource none "b" = .error (.missingTemplate "b") := by
  intro acts files
  -- a slash in front of a name does not count
  have hkey : withoutSlashes "/a" = "a" ∧ withoutSlashes "b" = "b" := by decide +kernel
  have hstored : Stored acts (withoutSlashes "/a") "2" := by
    rw [hkey.1]
    exact ⟨[.insert "b" "0", .insert "a" "1", .remove "b"], [.insert "c" "3"], rfl, by decide⟩
  have hnone : ∀ content, ¬ Stored acts (withoutSlashes "b") content := by
    intro content hstored
    rw [hkey.2, ← text?_after] at hstored
    have hremoved : (after acts).text? "b" = none := by decide +kernel
    rw [hremoved] at hstored
    cases hstored
  exact ⟨(openSource_after acts {} none "/a").1 "2" hstored,
    (openSource_after acts {} none "b").2 hnone⟩

/-- A name may lead to a text that was stored under another one: slashes at its front do not
count. -/
theorem not_openSource_after :
    ¬ ∀ (acts : List Act) (disk : Disk) (basePath : Option String) (name : String),
      let files : Files := { storage := .memory, memory := after acts, disk := disk }
      (∀ content, Stored acts name content →
        ∃ source, files.openSource basePath name = .ok source ∧
          source.content files = .ok content) ∧
      ((∀ content, ¬ Stored acts name content) →
        files.openSource basePath name = .error (.missingTemplate name)) := by
  intro h
  have hnone : ∀ content, ¬ Stored [.insert "a" "A"] "/a" content := by
    intro content hstored
    rw [← text?_after] at hstored
    -- the text was stored under the name without the slash
    have hmissing : (after [.insert "a" "A"]).text? "/a" = none := by decide +kernel
    rw [hmissing] at hstored
    cases hstored
  have hopen := (h [.insert "a" "A"] {} none "/a").2 hnone
  have hfound : (Files.openSource
      { storage := .memory, memory := after [.insert "a" "A"] } none "/a").toOption.isSome := by
    decide +kernel
  rw [hopen] at hfound
  cases hfound

end Stencil
