import Mathlib
import Stencil.Proofs.Engine.Session

/-!
# What the cached templates were compiled from

One cache keeps the templates of files under the names that they were asked for, and the templates
of strings under the strings themselves. A string may be the name of a file, and then a request for
one of them may be answered with the template of the other.

What a template was compiled from is told by the files of some earlier moment of the session
(`Session.Seen`): the file of a name as it was then (`Template.OfFile`), or a string
(`Template.OfText`), and no template is both. By induction on the events, everything in the cache
was compiled from the file or from the string that its key stands for, and the session has asked for
this file or for this string (`Session.cached_run`). So a request is answered with a template of
another origin exactly if the cache holds a usable template of this other origin under the key of
the request, and only if the session has used one word both as a name and as a cached string.

Main statement: `Session.answers_origin`.
-/

namespace Stencil

/-! ### Origins of templates -/

namespace Template

/-- A template that was compiled from a source, with a configuration and among files. -/
structure MadeOf (config : Config) (files : Files) (source : Source) (t : Template) : Prop where
  name : t.name = source.fileName?
  compiled : ∃ first next, compile config files source first = .ok (t.unit, next)

/-- A template that was compiled from the file of a name, as it was at some moment. -/
def OfFile (config : Config) (moment : Files → Prop) (file : String) (t : Template) : Prop :=
  ∃ files source, moment files ∧
    files.openSource config.settings.basePath file = .ok source ∧ t.MadeOf config files source

/-- A template that was compiled from a string, at some moment. -/
def OfText (config : Config) (moment : Files → Prop) (content : String) (t : Template) : Prop :=
  ∃ files cached, moment files ∧ t.MadeOf config files (.string content cached)

variable {config : Config} {moment later : Files → Prop} {t : Template}

/-- What was compiled from a file is still compiled from it when more moments are looked at. -/
theorem OfFile.mono {file : String} (h : t.OfFile config moment file)
    (hm : ∀ {files}, moment files → later files) : t.OfFile config later file := by
  obtain ⟨files, source, hfiles, hopen, hmade⟩ := h
  exact ⟨files, source, hm hfiles, hopen, hmade⟩

/-- Likewise for what was compiled from a text. -/
theorem OfText.mono {content : String} (h : t.OfText config moment content)
    (hm : ∀ {files}, moment files → later files) : t.OfText config later content := by
  obtain ⟨files, cached, hfiles, hmade⟩ := h
  exact ⟨files, cached, hm hfiles, hmade⟩

end Template

/-- What is opened under a name has one. -/
theorem Files.fileName?_of_openSource {files : Files} {basePath : Option String} {name : String}
    {source : Source} (h : files.openSource basePath name = .ok source) :
    source.fileName? ≠ none := by
  unfold Files.openSource at h
  -- a name leads to memory or to the disk, and the source takes its name from there
  split at h
  · unfold Files.openMemory at h
    dsimp only at h
    split at h
    · rw [← Except.ok.inj h]
      exact Option.some_ne_none _
    · cases h
  · unfold Files.openDisk at h
    dsimp only at h
    split at h
    · rw [← Except.ok.inj h]
      exact Option.some_ne_none _
    · cases h

/-- No template was compiled from a file and from a string. -/
theorem Template.OfText.not_ofFile {config : Config} {moment moment' : Files → Prop}
    {content file : String} {t : Template} (h : t.OfText config moment content) :
    ¬ t.OfFile config moment' file := by
  obtain ⟨_, _, _, htext⟩ := h
  rintro ⟨_, _, _, hopen, hfile⟩
  exact Files.fileName?_of_openSource hopen (hfile.name.symm.trans htext.name)

/-- What an engine compiles is made of the source. -/
theorem Engine.madeOf_of_compile {engine : Engine} {files : Files} {source : Source}
    {r : Template × Engine} (h : engine.compile files source = .ok r) :
    r.1.MadeOf engine.config files source ∧ r.2.config = engine.config ∧
      r.2.cache = engine.cache := by
  obtain ⟨unit, library, hunit, rfl⟩ := Engine.compile_eq_ok h
  obtain ⟨count, hcount, -⟩ := Library.compile_eq_ok hunit
  exact ⟨⟨rfl, _, count, hcount⟩, rfl, rfl⟩

/-- What an engine compiles into its cache is the only new template there. -/
theorem Engine.madeOf_of_compileInto {engine : Engine} {files : Files} {key : String}
    {source : Source} {r : Template × Engine}
    (h : engine.compileInto files key source = .ok r) :
    r.1.MadeOf engine.config files source ∧ r.2.config = engine.config ∧
      r.2.cache = engine.cache.insert key r.1 := by
  obtain ⟨engine', hcompile, hengine⟩ := Engine.compileInto_eq_ok h
  obtain ⟨hmade, hconfig, hcache⟩ := Engine.madeOf_of_compile hcompile
  rw [hengine]
  exact ⟨hmade, hconfig, congrArg (·.insert key r.1) hcache⟩

/-- What a request for a string changes of an engine. -/
theorem Engine.getByString_eq_ok {engine : Engine} {files : Files} {content : String}
    {cached : Bool} {r : Template × Engine}
    (h : engine.getByString files content cached = .ok r) :
    (cached = false ∧ engine.compile files (.string content false) = .ok r) ∨
    (cached = true ∧ engine.cached? files content = some r.1 ∧ r.2 = engine) ∨
    (cached = true ∧ engine.cached? files content = none ∧
      engine.compileInto files content (.string content true) = .ok r) := by
  cases cached with
  | false => exact .inl ⟨rfl, h⟩
  | true =>
    unfold Engine.getByString Engine.getBySource at h
    dsimp only [Source.cacheKey?] at h
    rw [if_pos rfl] at h
    dsimp only at h
    -- a cached string is answered as it is, or compiled into the cache under itself
    split at h
    · rename_i t ht
      obtain rfl := (Except.ok.inj h).symm
      exact .inr (.inl ⟨rfl, ht, rfl⟩)
    · rename_i hnone
      exact .inr (.inr ⟨rfl, hnone, h⟩)

namespace Session

/-! ### Moments of a session -/

/-- The files as they have been at some moment of a session, from its beginning to its end. -/
def Seen (name : String) (config : Config) (files : Files) (events : List Event)
    (seen : Files) : Prop :=
  ∃ front, front <+: events ∧ seen = ((start name config files).run front).files

variable {name : String} {config : Config} {files : Files} {events : List Event}

theorem seen_now : Seen name config files events ((start name config files).run events).files :=
  ⟨events, List.prefix_rfl, rfl⟩

/-- What has been seen stays seen, whatever else happens. -/
theorem Seen.append {seen : Files} (h : Seen name config files events seen) (more : List Event) :
    Seen name config files (events ++ more) seen := by
  obtain ⟨front, hfront, rfl⟩ := h
  exact ⟨front, hfront.trans (List.prefix_append events more), rfl⟩

/-- The last event of a session comes behind all others. -/
theorem run_concat (s : Session) (events : List Event) (e : Event) :
    s.run (events ++ [e]) = (s.run events).step e := List.foldl_append ..

/-! ### The cache of a session -/

/-- What the template under a key was compiled from, and the request that it was compiled for. -/
inductive Accounts (config : Config) (moment : Files → Prop) (events : List Event)
    (key : String) (t : Template) : Prop
  | file : t.OfFile config moment key → .get key ∈ events → Accounts config moment events key t
  | text : t.OfText config moment key → .getText key true ∈ events →
      Accounts config moment events key t

/-- Everything in the cache was compiled from the file or from the string that its key stands
for. -/
structure Accounted (config : Config) (moment : Files → Prop) (events : List Event)
    (s : Session) : Prop where
  settled : s.engine.config = config
  cache : ∀ {key t}, s.engine.cache.get? key = some t → Accounts config moment events key t

variable {moment later : Files → Prop} {s : Session} {e : Event}

/-- What accounts for a cached template still does so after more events and moments. -/
theorem Accounts.mono {more : List Event} {key : String} {t : Template}
    (h : Accounts config moment events key t) (hm : ∀ {files}, moment files → later files) :
    Accounts config later (events ++ more) key t := by
  cases h with
  | file hfile hmem => exact .file (hfile.mono hm) (List.mem_append_left _ hmem)
  | text htext hmem => exact .text (htext.mono hm) (List.mem_append_left _ hmem)

/-- A session that has cached nothing new. -/
theorem Accounted.kept {before : Session} (h : before.Accounted config moment events)
    (hm : ∀ {files}, moment files → later files)
    (hconfig : s.engine.config = before.engine.config)
    (hcache : ∀ {key t}, s.engine.cache.get? key = some t →
      before.engine.cache.get? key = some t) :
    s.Accounted config later (events ++ [e]) where
  settled := hconfig.trans h.settled
  cache hget := (h.cache (hcache hget)).mono hm

/-- A session that has cached one more template. -/
theorem Accounted.added {before : Session} (h : before.Accounted config moment events)
    (hm : ∀ {files}, moment files → later files) {key : String} {t : Template}
    (hconfig : s.engine.config = before.engine.config)
    (hcache : s.engine.cache = before.engine.cache.insert key t)
    (ht : Accounts config later (events ++ [e]) key t) :
    s.Accounted config later (events ++ [e]) where
  settled := hconfig.trans h.settled
  cache hget := by
    rw [hcache, Assoc.get?_insert] at hget
    split at hget
    · rename_i hkey
      rw [hkey, ← Option.some.inj hget]
      exact ht
    · exact (h.cache hget).mono hm

/-- A render keeps the account, for it leaves configuration and cache as they are. -/
theorem Accounted.rendered (h : s.Accounted config moment events)
    (hm : ∀ {files}, moment files → later files) (template : Nat)
    {render : Template → Rendered}
    (hrender : ∀ t, (render t).engine.config = s.engine.config ∧
      (render t).engine.cache = s.engine.cache) :
    (s.rendered template render).Accounted config later (events ++ [e]) := by
  unfold Session.rendered
  split
  · rename_i t _
    exact h.kept hm (hrender t).1 fun hget => (hrender t).2 ▸ hget
  · exact h.kept hm rfl id

/-- So does a request to share functions. -/
theorem Accounted.adopted (h : s.Accounted config moment events)
    (hm : ∀ {files}, moment files → later files) (source : Source) :
    (s.adopt (s.engine.share s.files source)).Accounted config later (events ++ [e]) := by
  cases hs : s.engine.share s.files source with
  | error error => exact h.kept hm rfl id
  | ok engine =>
    obtain ⟨library, -, hengine⟩ := bind_eq_ok_iff.mp hs
    obtain rfl := Except.ok.inj hengine
    exact h.kept hm rfl id

/-- **One event.** What is in the cache behind an event was there before, or it was compiled for the
event, from the files as they are. -/
theorem Accounted.step (h : s.Accounted config moment events)
    (hm : ∀ {files}, moment files → later files) (hnow : later s.files) (e : Event) :
    (s.step e).Accounted config later (events ++ [e]) := by
  have hlast : e ∈ events ++ [e] := List.mem_append_right _ (List.mem_singleton_self e)
  cases e with
  | store | remove | write | delete => exact h.kept hm rfl id
  | get file =>
    change (s.take (s.engine.getTemplate s.files file)).Accounted config later _
    cases hr : s.engine.getTemplate s.files file with
    | error error => exact h.kept hm rfl id
    | ok r =>
      obtain ⟨t, engine⟩ := r
      -- The cache answers, or the file is compiled as it is now.
      rcases Engine.getTemplate_eq_ok hr with ⟨-, rfl⟩ | ⟨-, source, hopen, hinto⟩
      · exact h.kept hm rfl id
      · obtain ⟨hmade, hconfig, hcache⟩ := Engine.madeOf_of_compileInto hinto
        obtain rfl := h.settled
        exact h.added hm hconfig hcache (.file ⟨_, source, hnow, hopen, hmade⟩ hlast)
  | getText content cached =>
    change (s.take (s.engine.getByString s.files content cached)).Accounted config later _
    cases hr : s.engine.getByString s.files content cached with
    | error error => exact h.kept hm rfl id
    | ok r =>
      obtain ⟨t, engine⟩ := r
      -- The request bypasses the cache, is answered by it, or finds nothing of use there.
      rcases Engine.getByString_eq_ok hr with ⟨rfl, hcompile⟩ | ⟨rfl, -, rfl⟩ | ⟨rfl, -, hinto⟩
      · obtain ⟨-, hconfig, hcache⟩ := Engine.madeOf_of_compile hcompile
        exact h.kept hm hconfig fun hget => hcache ▸ hget
      · exact h.kept hm rfl id
      · obtain ⟨hmade, hconfig, hcache⟩ := Engine.madeOf_of_compileInto hinto
        obtain rfl := h.settled
        exact h.added hm hconfig hcache (.text ⟨_, true, hnow, hmade⟩ hlast)
  | evict key =>
    refine h.kept hm rfl fun {key' t} hget => ?_
    change (s.engine.cache.erase key).get? key' = some t at hget
    rw [Assoc.get?_erase] at hget
    split at hget
    · cases hget
    · exact hget
  | clear => exact h.kept hm rfl fun hget => nomatch hget
  | shareFile file =>
    change (s.adopt (do s.engine.share s.files (← s.engine.openSource s.files file))).Accounted
      config later _
    cases s.engine.openSource s.files file with
    | error error => exact h.kept hm rfl id
    | ok source => exact h.adopted hm source
  | shareText content => exact h.adopted hm _
  | render template fuel data heap output => exact h.rendered hm template fun t => ⟨rfl, rfl⟩
  | renderToFile template fuel data heap path =>
    refine h.rendered hm template fun t => ?_
    unfold Engine.renderToFile
    split <;> exact ⟨rfl, rfl⟩

/-- **A whole session.** By induction on the events, the last one first. -/
theorem accounted_run (name : String) (config : Config) (files : Files) (events : List Event) :
    ((start name config files).run events).Accounted config (Seen name config files events)
      events := by
  induction events using List.reverseRecOn with
  | nil => exact ⟨rfl, fun hget => nomatch hget⟩
  | append_singleton events e ih =>
    rw [run_concat]
    exact ih.step (fun hseen => hseen.append [e]) (seen_now.append [e]) e

/-! ### Answers -/

/-- The cache has a usable template of a string under this string. -/
def HoldsText (config : Config) (moment : Files → Prop) (s : Session) (key : String) : Prop :=
  ∃ t, s.engine.cached? s.files key = some t ∧ t.OfText config moment key

/-- The cache has a usable template of a file under the name of this file. -/
def HoldsFile (config : Config) (moment : Files → Prop) (s : Session) (key : String) : Prop :=
  ∃ t, s.engine.cached? s.files key = some t ∧ t.OfFile config moment key

/-- A usable template in the cache was compiled from a file or from a string, and the cache holds no
template of the other kind under its key. -/
theorem Accounted.cached (h : s.Accounted config moment events) {key : String} {t : Template}
    (ht : s.engine.cached? s.files key = some t) :
    (t.OfFile config moment key ∧ ¬ s.HoldsText config moment key ∧ .get key ∈ events) ∨
      (t.OfText config moment key ∧ ¬ s.HoldsFile config moment key ∧
        .getText key true ∈ events) := by
  cases h.cache (Engine.cached?_eq_some ht).1 with
  | file hfile hasked =>
    refine .inl ⟨hfile, ?_, hasked⟩
    rintro ⟨t', ht', htext⟩
    obtain rfl := Option.some.inj (ht.symm.trans ht')
    exact htext.not_ofFile hfile
  | text htext hasked =>
    refine .inr ⟨htext, ?_, hasked⟩
    rintro ⟨t', ht', hfile⟩
    obtain rfl := Option.some.inj (ht.symm.trans ht')
    exact htext.not_ofFile hfile

/-- What a request for a file answers, if the cache is accounted for: the template of the file, or
one of a string that is cached under its name. -/
theorem Accounted.getTemplate (h : s.Accounted config moment events) (hnow : moment s.files)
    {file : String} {r : Template × Engine} (hr : s.engine.getTemplate s.files file = .ok r) :
    (r.1.OfFile config moment file ∧ ¬ s.HoldsText config moment file) ∨
      (r.1.OfText config moment file ∧ s.HoldsText config moment file ∧
        .getText file true ∈ events) := by
  rcases Engine.getTemplate_eq_ok hr with ⟨hcached, -⟩ | ⟨hnone, source, hopen, hinto⟩
  · rcases h.cached hcached with ⟨hfile, hholds, -⟩ | ⟨htext, -, hasked⟩
    -- what is in the cache was compiled from a file, or from a string
    · exact .inl ⟨hfile, hholds⟩
    · exact .inr ⟨htext, ⟨r.1, hcached, htext⟩, hasked⟩
  -- what is compiled now is the template of the file
  · obtain ⟨hmade, -, -⟩ := Engine.madeOf_of_compileInto hinto
    obtain rfl := h.settled
    refine .inl ⟨⟨s.files, source, hnow, hopen, hmade⟩, ?_⟩
    rintro ⟨t, hcached, -⟩
    simp [hnone] at hcached

/-- What a request for a string answers: the template of the string, or one of a file that is cached
under it. -/
theorem Accounted.getByString (h : s.Accounted config moment events) (hnow : moment s.files)
    {content : String} {cached : Bool} {r : Template × Engine}
    (hr : s.engine.getByString s.files content cached = .ok r) :
    (r.1.OfText config moment content ∧ ¬ (cached = true ∧ s.HoldsFile config moment content)) ∨
      (r.1.OfFile config moment content ∧ (cached = true ∧ s.HoldsFile config moment content) ∧
        .get content ∈ events) := by
  -- compiled past the cache, answered by the cache, or compiled into the cache
  rcases Engine.getByString_eq_ok hr with ⟨rfl, hcompile⟩ | ⟨rfl, hcached, -⟩ | ⟨rfl, hnone, hinto⟩
  · obtain ⟨hmade, -, -⟩ := Engine.madeOf_of_compile hcompile
    obtain rfl := h.settled
    exact .inl ⟨⟨s.files, false, hnow, hmade⟩, by simp⟩
  · rcases h.cached hcached with ⟨hfile, -, hasked⟩ | ⟨htext, hholds, -⟩
    · exact .inr ⟨hfile, ⟨rfl, r.1, hcached, hfile⟩, hasked⟩
    · exact .inl ⟨htext, fun hmixed => hholds hmixed.2⟩
  · obtain ⟨hmade, -, -⟩ := Engine.madeOf_of_compileInto hinto
    obtain rfl := h.settled
    -- the cache had nothing under this key, so it does not hold the template of a file there
    refine .inl ⟨⟨s.files, true, hnow, hmade⟩, ?_⟩
    rintro ⟨-, t, hcached, -⟩
    simp [hnone] at hcached

/-- **What answers were compiled from.** Take any session.

* A request for a file that goes well answers with a template that was compiled from this file
  exactly if the cache does not hold the template of a string under the name of the file. If it
  does, this template is the answer, and the session has asked for that string to be cached.
* A request for a string that goes well answers with a template that was compiled from this string
  exactly if it bypasses the cache, or if the cache does not hold the template of a file under the
  string. If it does, this template is the answer, and the session has asked for that file. -/
theorem answers_origin {name : String} {config : Config} {files : Files} {events : List Event}
    {s : Session} (hs : s = (start name config files).run events) :
    let seen := Seen name config files events
    (∀ file t engine, s.engine.getTemplate s.files file = .ok (t, engine) →
      (t.OfFile config seen file ↔ ¬ s.HoldsText config seen file) ∧
      (s.HoldsText config seen file →
        t.OfText config seen file ∧ .getText file true ∈ events)) ∧
    (∀ content cached t engine,
      s.engine.getByString s.files content cached = .ok (t, engine) →
      (t.OfText config seen content ↔ ¬ (cached = true ∧ s.HoldsFile config seen content)) ∧
      (cached = true ∧ s.HoldsFile config seen content →
        t.OfFile config seen content ∧ .get content ∈ events)) := by
  obtain rfl := hs
  have h := accounted_run name config files events
  intro seen
  refine ⟨fun file t engine hanswer => ?_, fun content cached t engine hanswer => ?_⟩
  -- both answers exclude each other, for no template is of a file and of a text
  · rcases h.getTemplate seen_now hanswer with ⟨hfile, hholds⟩ | ⟨htext, hholds, hasked⟩
    · exact ⟨iff_of_true hfile hholds, fun hmixed => absurd hmixed hholds⟩
    · exact ⟨iff_of_false htext.not_ofFile (not_not_intro hholds), fun _ => ⟨htext, hasked⟩⟩
  · rcases h.getByString seen_now hanswer with ⟨htext, hholds⟩ | ⟨hfile, hholds, hasked⟩
    · exact ⟨iff_of_true htext hholds, fun hmixed => absurd hmixed hholds⟩
    · exact ⟨iff_of_false (fun htext => htext.not_ofFile hfile) (not_not_intro hholds),
        fun _ => ⟨hfile, hasked⟩⟩

/-- A file beside a cached string that is not its name. -/
theorem answers_origin_apart :
    let events : List Event := [.store "a" "A", .getText "A" true, .get "a"]
    let s := (start "" {} { storage := .memory }).run events
    let seen := Seen "" {} { storage := .memory } events
    (∃ t engine, s.engine.getTemplate s.files "a" = .ok (t, engine) ∧ t.OfFile {} seen "a") ∧
      ∃ t engine, s.engine.getByString s.files "A" true = .ok (t, engine) ∧
        t.OfText {} seen "A" := by
  intro events s seen
  obtain ⟨hfile, htext⟩ := @answers_origin "" {} { storage := .memory } events s rfl
  have hfileOk : (s.engine.getTemplate s.files "a").isOk = true := by
    simp only [s, events]
    cbv
  have htextOk : (s.engine.getByString s.files "A" true).isOk = true := by
    simp only [s, events]
    cbv
  constructor
  -- the file is found, so its request has an answer
  · cases hanswer : s.engine.getTemplate s.files "a" with
    | error error =>
      rw [hanswer] at hfileOk
      cases hfileOk
    | ok r =>
      obtain ⟨horigin, hmixed⟩ := hfile "a" r.1 r.2 hanswer
      refine ⟨r.1, r.2, rfl, horigin.mpr fun hholds => ?_⟩
      simpa [events] using (hmixed hholds).2
  -- and the string is compiled, so its request has one
  · cases hanswer : s.engine.getByString s.files "A" true with
    | error error =>
      rw [hanswer] at htextOk
      cases htextOk
    | ok r =>
      obtain ⟨horigin, hmixed⟩ := htext "A" true r.1 r.2 hanswer
      refine ⟨r.1, r.2, rfl, horigin.mpr fun hholds => ?_⟩
      simpa [events] using (hmixed hholds).2

/-- A string that is the name of a file answers for the file. -/
theorem not_answers_origin :
    ¬ ∀ (name : String) (config : Config) (files : Files) (events : List Event),
      let s := (start name config files).run events
      let seen := Seen name config files events
      (∀ file t engine, s.engine.getTemplate s.files file = .ok (t, engine) →
        t.OfFile config seen file) ∧
      (∀ content cached t engine,
        s.engine.getByString s.files content cached = .ok (t, engine) →
        t.OfText config seen content) := by
  intro hall
  let s := (start "" {} { storage := .memory }).run [.store "a" "A", .getText "a" true]
  have hname : ((s.engine.getTemplate s.files "a").map fun r => r.1.name) = .ok none := by
    simp only [s]
    cbv
  have hfile := (hall "" {} { storage := .memory } [.store "a" "A", .getText "a" true]).1 "a"
  cases hanswer : s.engine.getTemplate s.files "a" with
  | error error =>
    rw [hanswer] at hname
    cases hname
  | ok r =>
    obtain ⟨files, source, -, hopen, hmade⟩ := hfile r.1 r.2 hanswer
    rw [hanswer] at hname
    exact Files.fileName?_of_openSource hopen (hmade.name.symm.trans (Except.ok.inj hname))

end Session

end Stencil
