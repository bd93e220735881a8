import Mathlib.Logic.Function.Iterate
import RelationApi.Command.Basic
import RelationApi.Proofs.Command.Files
import RelationApi.Proofs.Schema.SecondRun

/-!
# What the command does

The command has all of its output before it writes anything. So if the file cannot be read, is no
text, or its definitions cannot be augmented under the settings, nothing becomes of the machine but
its log. Otherwise the output goes to one place : the file that the request names, and no other file
changes, or the standard output, and no file changes at all.

A file may be augmented in place. What is written is read again as it was written, so on a type
system without block strings that mentions no generated type, any number of runs does what one of
them does (`Command.run_all_or_nothing`).
-/

namespace RelationApi

/-! ## Steps of a session -/

namespace Session

variable {α β : Type} (m : Machine)

/-- A session in two parts goes on where its first part has succeeded. -/
theorem runOn_bind (s : Session α) (f : α → Session β) : runOn (s >>= f) m =
    match s.runOn m with
    | (.ok a, m') => (f a).runOn m'
    | (.error fault, m') => (.error fault, m') := by
  change (match s.runOn m with | (x, m') => (ExceptT.bindCont f x : StateM Machine _) m') = _
  rcases s.runOn m with ⟨e | a, m'⟩ <;> rfl

theorem runOn_get : runOn get m = (.ok m, m) := rfl

theorem runOn_readFile (path : String) : (readFile path).runOn m =
    ((m.files.read path).mapError (.unreadableFile path), m) := by
  rw [readFile, runOn_bind, runOn_get]
  dsimp only
  cases m.files.read path <;> rfl

theorem runOn_writeFile (path : String) (content : ByteArray) : (writeFile path content).runOn m =
    match m.files.target path with
    | .ok place => (.ok (), { m with files := m.files.insert place (.file content) })
    | .error cause => (.error (.unwritableFile path cause), m) := by
  rw [writeFile, runOn_bind, runOn_get]
  dsimp only [FileTree.write]
  cases m.files.target path <;> rfl

theorem runOn_ofRun (r : Run CommandFault α) :
    (ofRun r).runOn m = (r.result, { m with log := m.log ++ r.log }) := by
  obtain ⟨log, e | a⟩ := r <;> rfl

/-- What is printed ends its last line, and is the text otherwise. -/
theorem endLine_spec (text : String) : (endLine text = text ∨ endLine text = text ++ "\n") ∧
    (endLine text).toList.getLast? = some '\n' := by
  unfold endLine
  split_ifs with h
  · exact ⟨Or.inl rfl, h⟩
  · exact ⟨Or.inr rfl, by simp⟩

end Session

/-! ## What is made -/

theorem fromUTF8?_toUTF8 (s : String) : String.fromUTF8? s.toUTF8 = some s := by
  rw [String.fromUTF8?, dif_pos (show s.toUTF8.IsValidUTF8 from s.isValidUTF8)]
  rfl

namespace Command

variable {configuration : Option Data} {request : Request}

/-- The request can be carried out on the files, and makes the text : the file holds a text, the
settings are there, and the definitions in the text are augmented, with a line feed for every line
end. -/
def Produces (configuration : Option Data) (request : Request) (files : FileTree) (out : String) :
    Prop :=
  ∃ content text settings, files.read request.path = .ok content ∧
    String.fromUTF8? content = some text ∧
    Settings.forSchema configuration request.schema = .ok settings ∧
    (Schema.augmentText (Text.unifyLineEnds text) (.ok settings)).result = .ok out

theorem augmented_eq_ok_iff {content : ByteArray} {schema out : String} :
    (augmented content configuration schema).result = .ok out ↔
      ∃ text settings, String.fromUTF8? content = some text ∧
        Settings.forSchema configuration schema = .ok settings ∧
        (Schema.augmentText (Text.unifyLineEnds text) (.ok settings)).result = .ok out := by
  have hdefinitions (text : String) : definitions content = .ok text ↔
      ∃ raw, String.fromUTF8? content = some raw ∧ Text.unifyLineEnds raw = text := by
    unfold definitions
    cases String.fromUTF8? content <;> simp
  have hmap (text : String) (settings : Settings) :
      ((Schema.augmentText text (.ok settings)).mapFault CommandFault.run).result = .ok out ↔
        (Schema.augmentText text (.ok settings)).result = .ok out :=
    mapError_eq_ok_iff
  unfold augmented
  simp only [Run.result_bind_eq_ok_iff, Run.result_ofExcept, hdefinitions, mapError_eq_ok_iff,
    hmap]
  constructor
  · rintro ⟨_, ⟨raw, hraw, rfl⟩, settings, hsettings, hout⟩
    exact ⟨raw, settings, hraw, hsettings, hout⟩
  · rintro ⟨raw, settings, hraw, hsettings, hout⟩
    exact ⟨_, ⟨raw, hraw, rfl⟩, settings, hsettings, hout⟩

/-! ## Runs of the command -/

section Runs

variable {m : Machine} {out : String}

/-- The output goes to a file that can be written, or to the standard output. -/
theorem runOn_deliver : (deliver request out).runOn m =
    match request.outputFile? with
    | none => (.ok (), { m with printed := m.printed ++ Session.endLine out })
    | some path =>
      match m.files.target path with
      | .ok place => (.ok (), { m with
          files := m.files.insert place (.file out.toUTF8)
          printed := m.printed ++ Session.endLine (notice path) })
      | .error cause => (.error (.unwritableFile path cause), m) := by
  unfold deliver
  cases request.outputFile? with
  | none => rfl
  | some path =>
    dsimp only
    rw [Session.runOn_bind, Session.runOn_writeFile]
    cases m.files.target path <;> rfl

/-- Nothing happens to the machine, apart from its log, before the output is there. -/
theorem runOn_run : (run configuration request).runOn m =
    match m.files.read request.path with
    | .error cause => (.error (.unreadableFile request.path cause), m)
    | .ok content =>
      let made := augmented content configuration request.schema
      match made.result with
      | .error fault => (.error fault, { m with log := m.log ++ made.log })
      | .ok out => (deliver request out).runOn { m with log := m.log ++ made.log } := by
  rw [run, Session.runOn_bind, Session.runOn_readFile]
  cases m.files.read request.path with
  | error cause => rfl
  | ok content =>
    change Session.runOn
      (Session.ofRun (augmented content configuration request.schema) >>= _) m = _
    rw [Session.runOn_bind, Session.runOn_ofRun]
    dsimp only
    cases (augmented content configuration request.schema).result <;> rfl

/-- A run with output only has to deliver it. -/
theorem exists_runOn_of_produces (h : Produces configuration request m.files out) :
    ∃ log, (run configuration request).runOn m =
      match request.outputFile? with
      | none => (.ok (), ⟨m.files, m.printed ++ Session.endLine out, log⟩)
      | some path =>
        match m.files.target path with
        | .ok place => (.ok (), ⟨m.files.insert place (.file out.toUTF8),
            m.printed ++ Session.endLine (notice path), log⟩)
        | .error cause => (.error (.unwritableFile path cause), ⟨m.files, m.printed, log⟩) := by
  obtain ⟨content, text, settings, hread, hmade⟩ := h
  have hresult := augmented_eq_ok_iff.2 ⟨text, settings, hmade⟩
  refine ⟨m.log ++ (augmented content configuration request.schema).log, ?_⟩
  rw [runOn_run, hread]
  dsimp only
  rw [hresult]
  exact runOn_deliver

theorem exists_runOn_of_not_produces (h : ∀ out, ¬Produces configuration request m.files out) :
    ∃ fault log, (run configuration request).runOn m = (.error fault, { m with log := log }) := by
  rw [runOn_run]
  cases hread : m.files.read request.path with
  | error cause => exact ⟨_, m.log, rfl⟩
  | ok content =>
    dsimp only
    cases hresult : (augmented content configuration request.schema).result with
    | error fault => exact ⟨fault, _, rfl⟩
    | ok out =>
      obtain ⟨text, settings, hmade⟩ := augmented_eq_ok_iff.1 hresult
      exact absurd ⟨content, text, settings, hread, hmade⟩ (h out)

end Runs

/-- What becomes of a machine when the request is carried out. -/
def after (configuration : Option Data) (request : Request) (m : Machine) : Machine :=
  ((run configuration request).runOn m).2

theorem files_after_of_not_produces {m : Machine}
    (h : ∀ out, ¬Produces configuration request m.files out) :
    (after configuration request m).files = m.files := by
  obtain ⟨fault, log, hrun⟩ := exists_runOn_of_not_produces h
  rw [after, hrun]

theorem files_after_of_produces {m : Machine} {out : String}
    (h : Produces configuration request m.files out) : (after configuration request m).files =
      match request.outputFile? with
      | none => m.files
      | some path =>
        match m.files.target path with
        | .ok place => m.files.insert place (.file out.toUTF8)
        | .error _ => m.files := by
  obtain ⟨log, hrun⟩ := exists_runOn_of_produces h
  rw [after, hrun]
  cases request.outputFile? with
  | none => rfl
  | some path =>
    dsimp only
    cases m.files.target path <;> rfl

/-- What becomes of the files depends on the files only. -/
theorem files_after_congr {m m' : Machine} (h : m'.files = m.files) :
    (after configuration request m').files = (after configuration request m).files := by
  by_cases hmade : ∃ out, Produces configuration request m.files out
  · obtain ⟨out, hout⟩ := hmade
    rw [files_after_of_produces hout, files_after_of_produces (h.symm ▸ hout), h]
  · rw [not_exists] at hmade
    rw [files_after_of_not_produces hmade, files_after_of_not_produces (h.symm ▸ hmade), h]

/-- If the files change, the whole output is in one of them. -/
theorem exists_of_files_after_ne {m : Machine}
    (h : (after configuration request m).files ≠ m.files) :
    ∃ out path place, Produces configuration request m.files out ∧
      request.outputFile? = some path ∧ m.files.target path = .ok place ∧
      (after configuration request m).files = m.files.insert place (.file out.toUTF8) := by
  by_cases hmade : ∃ out, Produces configuration request m.files out
  · obtain ⟨out, hout⟩ := hmade
    rw [files_after_of_produces hout] at h ⊢
    split at h
    · exact absurd rfl h
    · next path hpath =>
      split at h
      · next place htarget =>
        exact ⟨out, path, place, hout, hpath, htarget, rfl⟩
      · exact absurd rfl h
  · exact absurd (files_after_of_not_produces (not_exists.1 hmade)) h

/-! ## In place -/

/-- If the file holds definitions, these are a type system without block strings that mentions no
type that the run generates. -/
def InputIsPlain (configuration : Option Data) (request : Request) (files : FileTree) : Prop :=
  ∀ content text d, files.read request.path = .ok content →
    String.fromUTF8? content = some text →
    Sdl.Document.parse (Text.unifyLineEnds text) = .ok d →
    (∀ x ∈ d.definitions, x.isTypeSystem) ∧
    (∀ t ∈ Sdl.Token.ofString (Text.unifyLineEnds text), ∀ s, t.kind ≠ .block s) ∧
    ∀ settings types, Settings.forSchema configuration request.schema = .ok settings →
      (Schema.augmentedTypes d (.ok settings)).result = .ok types →
      ∀ n ∈ types.generated.keys, n ∉ d.typeNames

/-- What was written in place of a plain input makes the same output again. -/
theorem Produces.of_read {files files' : FileTree} {out : String}
    (h : Produces configuration request files out)
    (hplain : InputIsPlain configuration request files)
    (hread : files'.read request.path = .ok out.toUTF8) :
    Produces configuration request files' out := by
  obtain ⟨content, text, settings, hcontent, htext, hsettings, hout⟩ := h
  obtain ⟨d, -, hparse, -⟩ := Schema.augmentText_eq_ok_iff.1 hout
  obtain ⟨hsystem, hblock, hnew⟩ := hplain content text d hcontent htext hparse
  exact ⟨_, out, settings, hread, fromUTF8?_toUTF8 out, hsettings,
    Schema.augmentText_fixed hparse hsystem hblock (fun types => hnew settings types hsettings)
      hout⟩

/-- A run in place leaves files that further runs leave as they are. -/
theorem files_after_of_eq {m m' : Machine} (hplace : request.output = some request.path)
    (hplain : InputIsPlain configuration request m.files)
    (hm' : m'.files = (after configuration request m).files) :
    (after configuration request m').files = m'.files := by
  by_cases hsame : (after configuration request m).files = m.files
  · rw [files_after_congr (hm'.trans hsame), hm']
  · -- The whole output is in the file, so the next run reads it, and writes what is there.
    obtain ⟨out, path, place, hout, hpath, htarget, hfiles⟩ := exists_of_files_after_ne hsame
    obtain rfl : request.path = path := by
      rw [Request.outputFile?, hplace] at hpath
      exact Option.some.inj (Option.eq_some_of_filter_eq_some hpath)
    obtain ⟨hleads, hfile⟩ := FileTree.leads_of_target htarget
    rw [hfiles] at hm'
    have hread : m'.files.read request.path = .ok out.toUTF8 := by
      rw [hm']
      exact (FileTree.read_insert_eq_ok_iff hleads.under hfile _).2 (Or.inl ⟨hleads, rfl⟩)
    have htarget' : m'.files.target request.path = .ok place := by
      rw [hm']
      exact (FileTree.target_insert_eq_ok_iff hleads.under hfile _).2 htarget
    have hfind : m'.files.find? place = some (.file out.toUTF8) := by
      rw [hm']
      exact Registry.find?_insert_self _ _ _
    rw [files_after_of_produces (hout.of_read hplain hread), hpath]
    dsimp only
    rw [htarget']
    exact Registry.insert_of_find?_eq_some hfind

theorem files_iterate_after {m : Machine} (hplace : request.output = some request.path)
    (hplain : InputIsPlain configuration request m.files) (n : Nat) :
    ((after configuration request)^[n + 1] m).files = (after configuration request m).files := by
  induction n with
  | zero => rfl
  | succ n ih =>
    rw [Function.iterate_succ_apply', files_after_of_eq hplace hplain ih, ih]

/-! ## All or nothing -/

theorem outputFile?_eq_none_iff : request.outputFile? = none ↔
    ∀ path, request.output = some path → path = "" := by
  simp [Request.outputFile?, Option.filter_eq_none_iff]

theorem outputFile?_of_ne {path : String} (h : request.output = some path) (hne : path ≠ "") :
    request.outputFile? = some path := by
  simp [Request.outputFile?, h, Option.filter, hne]

/-- If the command has no output to give, because the file cannot be read, is no text, the settings
cannot be had or the definitions cannot be augmented, then it fails, and neither the files nor what
was printed change. If it has output and no file to write to, the output is printed on lines that
end, and no file changes. If there is a file to write to, and this has a place, then the file there
becomes the output, whether it is the file that was read or not : all other places have what they
had, and everything that is read is as before, except under paths that lead to the place. Without a
place the command fails, and again nothing changes. And if the file is written in place of its plain
input, running the command any number of times leaves the files that running it once does. -/
theorem run_all_or_nothing (configuration : Option Data) (request : Request) (m : Machine) :
    ((∀ out, ¬Produces configuration request m.files out) →
      (∃ fault, ((run configuration request).runOn m).1 = .error fault) ∧
      (after configuration request m).files = m.files ∧
      (after configuration request m).printed = m.printed) ∧
    (∀ out, Produces configuration request m.files out →
      ((∀ path, request.output = some path → path = "") →
        ((run configuration request).runOn m).1 = .ok () ∧
        (after configuration request m).files = m.files ∧
        ∃ lines, (after configuration request m).printed = m.printed ++ lines ∧
          (lines = out ∨ lines = out ++ "\n") ∧ lines.toList.getLast? = some '\n') ∧
      ∀ path, request.output = some path → path ≠ "" →
        (∀ place, m.files.target path = .ok place →
          ((run configuration request).runOn m).1 = .ok () ∧
          (after configuration request m).printed =
            m.printed ++ Session.endLine (notice path) ∧
          (∀ place', (after configuration request m).files.find? place' =
            if place' = place then some (.file out.toUTF8) else m.files.find? place') ∧
          ∀ path' content, (after configuration request m).files.read path' = .ok content ↔
            m.files.Leads path' place ∧ content = out.toUTF8 ∨
              ¬m.files.Leads path' place ∧ m.files.read path' = .ok content) ∧
        (∀ cause, m.files.target path = .error cause →
          ((run configuration request).runOn m).1 = .error (.unwritableFile path cause) ∧
          (after configuration request m).files = m.files ∧
          (after configuration request m).printed = m.printed)) ∧
    (request.output = some request.path → InputIsPlain configuration request m.files →
      ∀ n, ((after configuration request)^[n + 1] m).files =
        (after configuration request m).files) := by
  refine ⟨fun h => ?_, fun out h => ⟨fun hprint => ?_, fun path hpath hne =>
    ⟨fun place htarget => ?_, fun cause htarget => ?_⟩⟩, files_iterate_after⟩
  · obtain ⟨fault, log, hrun⟩ := exists_runOn_of_not_produces h
    rw [after, hrun]
    exact ⟨⟨fault, rfl⟩, rfl, rfl⟩
  · obtain ⟨log, hrun⟩ := exists_runOn_of_produces h
    rw [after, hrun, outputFile?_eq_none_iff.2 hprint]
    exact ⟨rfl, rfl, _, rfl, Session.endLine_spec out⟩
  · obtain ⟨log, hrun⟩ := exists_runOn_of_produces h
    rw [after, hrun, outputFile?_of_ne hpath hne]
    dsimp only
    rw [htarget]
    obtain ⟨hleads, hfile⟩ := FileTree.leads_of_target htarget
    exact ⟨rfl, rfl, fun place' => Registry.find?_insert m.files place place' _,
      fun path' content => FileTree.read_insert_eq_ok_iff hleads.under hfile _⟩
  · obtain ⟨log, hrun⟩ := exists_runOn_of_produces h
    rw [after, hrun, outputFile?_of_ne hpath hne]
    dsimp only
    rw [htarget]
    exact ⟨rfl, rfl, rfl⟩

/-- Definitions whose lines end in two characters, with a flag for the name of the relationship. -/
def flaggedPerson : String :=
  "type Person \x7b\r\n  knows: [Person!]! @relation(name: true)\r\n\x7d\r\ntype Mutation"

/-- The file with these definitions, augmented in place any number of times. -/
theorem run_all_or_nothing_in_place :
    let request : Request := { path := "schema.graphql", output := some "schema.graphql" }
    let m : Machine :=
      { files := .ofList [(["schema.graphql"], .file flaggedPerson.toUTF8)] }
    ∃ out, Produces none request m.files out ∧
      m.files.target request.path = .ok ["schema.graphql"] ∧
      InputIsPlain none request m.files ∧ ((run none request).runOn m).1 = .ok () ∧
      ∀ n, ((after none request)^[n + 1] m).files.read request.path = .ok out.toUTF8 := by
  intro request m
  have hsettings : Settings.forSchema none request.schema = .ok {} := rfl
  have hread : ∀ content : ByteArray,
      FileTree.read (.ofList [(["schema.graphql"], .file content)]) "schema.graphql" =
        .ok content := fun _ => rfl
  have htarget : ∀ content : ByteArray,
      FileTree.target (.ofList [(["schema.graphql"], .file content)]) "schema.graphql" =
        .ok ["schema.graphql"] := fun _ => rfl
  have hinput : ∃ d, Sdl.Document.parse (Text.unifyLineEnds flaggedPerson) = .ok d ∧
      (∀ x ∈ d.definitions, x.isTypeSystem) ∧
      (∀ t ∈ Sdl.Token.ofString (Text.unifyLineEnds flaggedPerson), ∀ s, t.kind ≠ .block s) ∧
      ((Schema.augmentedTypes d (.ok {})).result.toOption.map fun types => types.generated.keys) =
        some ["_AddPersonKnowsPayload", "_RemovePersonKnowsPayload"] ∧
      (∀ n ∈ ["_AddPersonKnowsPayload", "_RemovePersonKnowsPayload"], n ∉ d.typeNames) ∧
      (Schema.augmentText (Text.unifyLineEnds flaggedPerson) (.ok {})).result.isOk := by
    decide +kernel
  obtain ⟨d, hparse, hsystem, hblock, hkeys, hnew, hok⟩ := hinput
  obtain ⟨out, hout⟩ := except_isOk_iff.1 hok
  have hmade : Produces none request m.files out :=
    ⟨_, flaggedPerson, {}, hread _, fromUTF8?_toUTF8 _, hsettings, hout⟩
  have hplain : InputIsPlain none request m.files := by
    intro content text d' hcontent htext hparse'
    obtain rfl := Except.ok.inj ((hread _).symm.trans hcontent)
    obtain rfl := Option.some.inj ((fromUTF8?_toUTF8 _).symm.trans htext)
    obtain rfl := Except.ok.inj (hparse.symm.trans hparse')
    refine ⟨hsystem, hblock, fun settings types hsettings' htypes n hn => hnew n ?_⟩
    obtain rfl := Except.ok.inj (hsettings.symm.trans hsettings')
    rw [htypes] at hkeys
    exact Option.some.inj hkeys ▸ hn
  obtain ⟨-, hdone, hagain⟩ := run_all_or_nothing none request m
  obtain ⟨hrun, -, -, hfiles⟩ := ((hdone out hmade).2 _ rfl (by decide)).1 _ (htarget _)
  refine ⟨out, hmade, htarget _, hplain, hrun, fun n => ?_⟩
  rw [hagain rfl hplain n]
  exact (hfiles _ _).2 (Or.inl ⟨(FileTree.leads_of_target (htarget _)).1, rfl⟩)

end Command

end RelationApi
