import EvalDesk.Proofs.Engine.Chronicle

/-!
# Loading the source after a save

When the source was saved it is read again and then loaded. Reading it may fail; then the status
tells why, and the source is empty from then on. Loading looks at the source only, so a file that
cannot be read is loaded as an empty one. A save loads what is on the disk or nothing exactly when
the file can be read and the transcript takes the entry of the load, or the file cannot be read and
the load comes to nothing by chance: the transcript takes no entry, or the path has a null character
and the failure gets out.
-/
namespace EvalDesk

/-! ## Reading the source again -/

/-- The bytes of a file without a null character in its path cannot be read because of the file
system alone. -/
theorem Disk.readBytes_error {disk : Disk} {path : String} {fault : Fault}
    (clean : ¬path.toList.contains '\x00' = true) (fails : disk.readBytes path = .error fault) :
    ∃ error place, fault = .system error place := by
  rw [readBytes, lookUp, if_neg clean] at fails
  cases found : disk.find path with
  | error error =>
    rw [found] at fails
    cases fails
    exact ⟨error, path, rfl⟩
  | ok place =>
    obtain ⟨names, node⟩ := place
    rw [found] at fails
    cases node with
    | file content => cases fails
    | directory =>
      cases fails
      exact ⟨_, _, rfl⟩
    | archive entries => cases fails

/-- The text of such a file cannot be read because of the file system or because of its bytes. -/
theorem Disk.readText_error {disk : Disk} {path : String} {fault : Fault}
    (clean : ¬path.toList.contains '\x00' = true) (fails : disk.readText path = .error fault) :
    (∃ error place, fault = .system error place) ∨ ∃ flaw, fault = .undecodable flaw := by
  rw [readText] at fails
  cases read : disk.readBytes path with
  | error other =>
    rw [read] at fails
    cases fails
    exact .inl (readBytes_error clean read)
  | ok bytes =>
    rw [read] at fails
    dsimp only [bind, Except.bind] at fails
    cases decoded : Text.Utf8.decode bytes with
    | ok text =>
      rw [decoded] at fails
      cases fails
    | error flaw =>
      rw [decoded] at fails
      cases fails
      exact .inr ⟨flaw, rfl⟩

/-- The text that a source has when it was read again: it is empty when the file cannot be read, and
there is none when that failure gets out. -/
def Source.reread? (disk : Disk) (path : String) : Option String :=
  match Source.ofFile disk path with
  | .ok buffer => some buffer.text
  | .error (.source _) => some ""
  | .error _ => none

/-- A file that can be read gives its text. -/
theorem Source.reread?_of_read {disk : Disk} {path text : String}
    (read : disk.readText path = .ok text) : reread? disk path = some text := by
  rw [reread?, ofFile, read]

/-- A file that cannot be read gives an empty text, unless its path has a null character. -/
theorem Source.reread?_of_unread {disk : Disk} {path : String} {fault : Fault}
    (fails : disk.readText path = .error fault) :
    reread? disk path = if path.toList.contains '\x00' then none else some "" := by
  split
  · rename_i null
    rw [reread?, Engine.ofFile_null null]
  · rename_i clean
    rcases Disk.readText_error clean fails with ⟨error, place, rfl⟩ | ⟨flaw, rfl⟩ <;>
      rw [reread?, ofFile, fails]

/-- An entry is added exactly when one more can be held against the limit. -/
theorem DeskState.isOk_append (state : DeskState) (kind : Transcript.Kind) (text : Datum) :
    (state.append kind text).2.isOk =
      (Transcript.excess (state.transcript.length + 1) state.transcriptLimit).isOk := by
  simp only [append, Transcript.add, List.length_append, List.length_singleton]
  cases Transcript.excess (state.transcript.length + 1) state.transcriptLimit <;> rfl

namespace Engine

/-- What a load takes from the engine besides the source. -/
structure Sheet where
  /-- The settings. -/
  settings : Settings
  /-- The session. -/
  session : Session Purpose
  /-- What was sent and what came back. -/
  transcript : Transcript
  /-- How many entries the transcript keeps. -/
  limit : Datum

/-- What a load takes from the engine besides the source. -/
def sheet (engine : Engine) : Sheet :=
  ⟨engine.settings, engine.session, engine.state.transcript, engine.state.transcriptLimit⟩

/-- The transcript takes one more entry. -/
def Sheet.hasRoom (sheet : Sheet) : Bool :=
  (Transcript.excess (sheet.transcript.length + 1) sheet.limit).isOk

/-- The settings say that the source is loaded after a save. -/
def LoadsOnSave (engine : Engine) : Prop :=
  (engine.settings.get "load_on_save" (.bool true)).isPresent = true

section Saves

variable {disk : Disk} {engine : Engine} {text : String}

/-- Reading the source again changes nothing else. -/
theorem perform_loadSource (reads : Source.reread? disk engine.state.sourcePath = some text) :
    ∃ loaded, engine.perform (loadSource disk) = (loaded, .ok ()) ∧
      loaded.buffer = ⟨engine.state.sourcePath, text⟩ ∧ loaded.sheet = engine.sheet := by
  simp only [loadSource, perform_bind, perform_get]
  rw [Source.reread?] at reads
  cases read : Source.ofFile disk engine.state.sourcePath with
  | ok buffer =>
    rw [read] at reads
    cases reads
    have path := path_of_ofFile read
    exact ⟨_, rfl, by rw [← path], rfl⟩
  | error fault =>
    rw [read] at reads
    cases fault with
    | source problem =>
      cases reads
      exact ⟨_, rfl, rfl, rfl⟩
    | _ => contradiction

/-- After a save the source is loaded with the text it has then. -/
theorem ofSave?_of_reread (loads : engine.LoadsOnSave)
    (reads : Source.reread? disk engine.state.sourcePath = some text) :
    ∃ loaded, Evaluation.ofSave? disk engine = some (.ofSource loaded) ∧
      loaded.buffer = ⟨engine.state.sourcePath, text⟩ ∧ loaded.sheet = engine.sheet := by
  obtain ⟨loaded, done, buffer, sheet⟩ := perform_loadSource reads
  have still : (loaded.settings.get "load_on_save" (.bool true)).isPresent = true :=
    (congrArg (fun sheet : Sheet =>
      (sheet.settings.get "load_on_save" (.bool true)).isPresent) sheet).trans loads
  refine ⟨loaded, ?_, buffer, sheet⟩
  rw [Evaluation.ofSave?, done]
  exact if_pos still

/-- When the failure to read it gets out nothing is loaded. -/
theorem ofSave?_of_not_reread (fails : Source.reread? disk engine.state.sourcePath = none) :
    Evaluation.ofSave? disk engine = none := by
  rw [Source.reread?] at fails
  simp only [Evaluation.ofSave?, loadSource, perform_bind, perform_get]
  cases read : Source.ofFile disk engine.state.sourcePath with
  | ok buffer =>
    rw [read] at fails
    contradiction
  | error fault =>
    rw [read] at fails
    cases fault with
    | source problem => contradiction
    | _ => rfl

/-- The request of an evaluation is sent exactly when the transcript takes the entry of its code. -/
theorem message_of_evaluation (evaluation : Evaluation) :
    (Sending.ofEvaluation? evaluation).map (·.message) =
      if evaluation.prepared.sheet.hasRoom then
        some (evaluation.prepared.session.message evaluation.op evaluation.fields)
      else none := by
  let cleared :=
    { evaluation.prepared with decorations := [] }.withState DeskState.resetCycle
  have room : (cleared.state.append .input (.text evaluation.code)).2.isOk =
      evaluation.prepared.sheet.hasRoom := DeskState.isOk_append _ _ _
  rw [Sending.ofEvaluation?, perform_beginCycle_eq, ← room]
  cases (cleared.state.append .input (.text evaluation.code)).2 <;> rfl

/-- The request that loads a text as the source. -/
def loadMessage (engine : Engine) (text : String) : Message :=
  engine.session.message "load-file" (Session.loadFields text engine.state.sourcePath)

/-- A save sends the request to load the text that the source has then, if it has one and the
transcript takes the entry of the load. -/
theorem message_of_save (loads : engine.LoadsOnSave) :
    ((Evaluation.ofSave? disk engine).bind Sending.ofEvaluation?).map (·.message) =
      if engine.sheet.hasRoom then
        (Source.reread? disk engine.state.sourcePath).map engine.loadMessage
      else none := by
  cases reads : Source.reread? disk engine.state.sourcePath with
  | none =>
    rw [ofSave?_of_not_reread reads]
    exact (ite_self none).symm
  | some text =>
    obtain ⟨loaded, found, buffer, sheet⟩ := ofSave?_of_reread loads reads
    have session : loaded.session = engine.session := congrArg Sheet.session sheet
    rw [found, Option.bind_some, message_of_evaluation]
    simp only [Evaluation.ofSource, sheet, buffer, session, Option.map_some, loadMessage]

/-- It carries the text. -/
theorem file_loadMessage (engine : Engine) (text : String) :
    (engine.loadMessage text).get? "file" = some (.text text) := by
  let stamps := engine.session.stamps "load-file"
    (Session.loadFields text engine.state.sourcePath)
  have named := Table.get?_put stamps "file" (.text text)
  have path := Table.get?_put_of_ne (stamps.put "file" (.text text))
    (.text engine.state.sourcePath) (show (.text "file" : Table.Key) ≠ .text "file-path" by decide)
  have name := Table.get?_put_of_ne
    ((stamps.put "file" (.text text)).put "file-path" (.text engine.state.sourcePath))
    (.text (Session.fileName engine.state.sourcePath))
    (show (.text "file" : Table.Key) ≠ .text "file-name" by decide)
  exact name.trans (path.trans named)

/-- A message is a request to load a file. -/
def isLoad (message : Message) : Bool :=
  match message.get? "op" with
  | some (.text op) => op = "load-file"
  | _ => false

/-- It is a request to load a file. -/
theorem isLoad_loadMessage (engine : Engine) (text : String) :
    isLoad (engine.loadMessage text) = true := by
  have op := engine.session.get?_message "load-file"
    (show ∀ entry ∈ Session.loadFields text engine.state.sourcePath, entry.1 ≠ "op" by
      simp [Session.loadFields])
  rw [isLoad, loadMessage, op]
  rfl

end Saves

/-! ## Orders that tell of a save -/

/-- The order tells that the source was saved. -/
inductive TellsSave (world : World) (engine : Engine) : Order → Prop where
  /-- It does so by itself. -/
  | saved : TellsSave world engine .saved
  /-- It is a change in the directory of the source by which a save is noticed. -/
  | changed {event : FileEvent} {now : Quantity} {watch after : SaveWatch} :
    engine.watch = some watch → watch.take world.disk event now = .ok (after, true) →
    TellsSave world engine (.changed event now)

/-- After a save exactly one request is sent to load a file, with the text of the source as it
stands on the disk, if it can be read; and none if it cannot. -/
def LoadsWhatIsRead (disk : Disk) (engine after : Engine) : Prop :=
  ∃ sent, after.messages = engine.messages ++ sent ∧
    (∀ text, disk.readText engine.state.sourcePath = .ok text →
      ∃ message, sent.filter isLoad = [message] ∧ message.get? "file" = some (.text text)) ∧
    ∀ fault, disk.readText engine.state.sourcePath = .error fault → sent.filter isLoad = []

section Notices

variable {world : World} {engine : Engine} {order : Order}

/-- What is sent after a save is the request to load the text that the source has then. -/
theorem messages_of_save (tells : engine.TellsSave world order) (loads : engine.LoadsOnSave) :
    (engine.obey world order).messages = engine.messages ++
      (if engine.sheet.hasRoom then
        (Source.reread? world.disk engine.state.sourcePath).map engine.loadMessage
      else none).toList := by
  rw [messages_obey]
  congr 2
  cases tells with
  | saved => exact message_of_save loads
  | @changed event now watch after watched told =>
    have saves : engine.evaluation? world (.changed event now) =
        Evaluation.ofSave? world.disk { engine with watch := some after } := by
      simp only [evaluation?, watched, told]
    rw [sending?, saves]
    · exact @message_of_save world.disk { engine with watch := some after } loads
    all_goals simp

/-- A save loads what is on the disk or nothing exactly when the source can be read and the
transcript takes the entry of the load, or it cannot be read and the transcript does not take that
entry, or the path of the source has a null character. -/
theorem loads_what_is_read_iff (tells : engine.TellsSave world order)
    (loads : engine.LoadsOnSave) :
    LoadsWhatIsRead world.disk engine (engine.obey world order) ↔
      if (world.disk.readText engine.state.sourcePath).isOk then engine.sheet.hasRoom = true
      else
        engine.sheet.hasRoom = false ∨ engine.state.sourcePath.toList.contains '\x00' = true := by
  let sent := (if engine.sheet.hasRoom then
    (Source.reread? world.disk engine.state.sourcePath).map engine.loadMessage else none).toList
  have sends : (engine.obey world order).messages = engine.messages ++ sent :=
    messages_of_save tells loads
  have all : sent.filter isLoad = sent := by
    refine List.filter_eq_self.mpr fun message member => ?_
    obtain ⟨room, own⟩ := Option.ite_none_right_eq_some.mp (Option.mem_toList.mp member)
    obtain ⟨text, -, rfl⟩ := Option.map_eq_some_iff.mp own
    exact isLoad_loadMessage engine text
  have exactly_sent : LoadsWhatIsRead world.disk engine (engine.obey world order) ↔
      (∀ text, world.disk.readText engine.state.sourcePath = .ok text →
        ∃ message, sent = [message] ∧ message.get? "file" = some (.text text)) ∧
      ∀ fault, world.disk.readText engine.state.sourcePath = .error fault → sent = [] := by
    constructor
    · rintro ⟨found, messages, law⟩
      cases List.append_cancel_left (messages.symm.trans sends)
      rwa [all] at law
    · intro law
      exact ⟨sent, sends, by rwa [all]⟩
  rw [exactly_sent]
  cases read : world.disk.readText engine.state.sourcePath with
  | ok text =>
    have reads := Source.reread?_of_read read
    cases room : engine.sheet.hasRoom with
    | true =>
      have one : sent = [engine.loadMessage text] := by simp [sent, room, reads]
      simp [one, file_loadMessage, Except.isOk, Except.toBool]
    | false =>
      have nothing : sent = [] := by simp [sent, room]
      simp [nothing, Except.isOk, Except.toBool]
  | error fault =>
    have reads := Source.reread?_of_unread read
    by_cases null : engine.state.sourcePath.toList.contains '\x00' = true
    · rw [if_pos null] at reads
      have nothing : sent = [] := by simp [sent, reads]
      simp [nothing, List.contains_iff_mem.mp null, Except.isOk, Except.toBool]
    · rw [if_neg null] at reads
      have clean : '\x00' ∉ engine.state.sourcePath.toList := mt List.contains_iff_mem.mpr null
      cases room : engine.sheet.hasRoom with
      | true =>
        have one : sent = [engine.loadMessage ""] := by simp [sent, room, reads]
        simp [one, clean, Except.isOk, Except.toBool]
      | false =>
        have nothing : sent = [] := by simp [sent, room]
        simp [nothing, Except.isOk, Except.toBool]

end Notices

/-- A source that stands on the disk is loaded after a save. -/
theorem loads_what_is_read_iff_there :
    ∃ first, Engine.create (soleWorld "(a)").disk "/a.clj" plainSettings = .ok first ∧
      let engine := first.obey (soleWorld "(a)") .start
      engine.TellsSave (soleWorld "(a)") .saved ∧ engine.LoadsOnSave ∧
        LoadsWhatIsRead (soleWorld "(a)").disk engine (engine.obey (soleWorld "(a)") .saved) := by
  obtain ⟨first, created, run⟩ := @exists_created _ (soleWorld "(a)").disk "/a.clj" plainSettings
    (fun first =>
      let engine := first.obey (soleWorld "(a)") .start
      ((engine.settings.get "load_on_save" (.bool true)).isPresent, engine.sheet.hasRoom,
        ((soleWorld "(a)").disk.readText engine.state.sourcePath).isOk))
    (true, true, true) (by decide +kernel)
  obtain ⟨loads, more⟩ := Prod.mk.inj run
  obtain ⟨room, reads⟩ := Prod.mk.inj more
  refine ⟨first, created, .saved, loads, (loads_what_is_read_iff .saved loads).mpr ?_⟩
  rw [if_pos reads]
  exact room

/-- A world in which the source ends within a letter of two bytes. -/
def halfWorld : World :=
  { soleWorld "(a)" with disk := ⟨[(["a.clj"], .file [0x28, 0xc3])], Path.ofText "/"⟩ }

/-- The content of the source is different on the disk. -/
def sourceModified : Order := .changed ⟨.text "/a.clj", .modified, false⟩ (.whole 0)

/-- A source that cannot be decoded when a change of it is noticed is loaded as an empty one. -/
theorem undecodable_source_loads_empty :
    ∃ first, Engine.create (soleWorld "(a)").disk "/a.clj" plainSettings = .ok first ∧
      let engine := first.obey (soleWorld "(a)") .start
      let after := engine.obey halfWorld sourceModified
      engine.TellsSave halfWorld sourceModified ∧ engine.LoadsOnSave ∧
        (halfWorld.disk.readText engine.state.sourcePath).isOk = false ∧
        (after.messages.drop engine.messages.length).map (fun message =>
          (isLoad message, (message.get "file").text?)) = [(true, some "")] ∧
        ¬LoadsWhatIsRead halfWorld.disk engine after := by
  obtain ⟨first, created, noticed⟩ := @exists_created _ (soleWorld "(a)").disk "/a.clj"
    plainSettings (fun first => (first.obey (soleWorld "(a)") .start).watch.map fun watch =>
      (watch.take halfWorld.disk ⟨.text "/a.clj", .modified, false⟩ (.whole 0)).toOption.map
        Prod.snd) (some (some true)) (by decide +kernel)
  have run := @of_created _ _ _ _ _ (fun first =>
      let engine := first.obey (soleWorld "(a)") .start
      ((engine.settings.get "load_on_save" (.bool true)).isPresent,
        (halfWorld.disk.readText engine.state.sourcePath).isOk,
        ((engine.obey halfWorld sourceModified).messages.drop engine.messages.length).map
          fun message => (isLoad message, (message.get "file").text?)))
    (true, false, [(true, some "")]) created (by decide +kernel)
  obtain ⟨loads, more⟩ := Prod.mk.inj run
  obtain ⟨unread, sent⟩ := Prod.mk.inj more
  obtain ⟨watch, watched, told⟩ := Option.map_eq_some_iff.mp noticed
  have tells : (first.obey (soleWorld "(a)") .start).TellsSave halfWorld sourceModified := by
    cases taken : watch.take halfWorld.disk ⟨.text "/a.clj", .modified, false⟩ (.whole 0) with
    | error fault =>
      rw [taken] at told
      cases told
    | ok outcome =>
      obtain ⟨later, saved⟩ := outcome
      rw [taken] at told
      cases told
      exact .changed watched taken
  refine ⟨first, created, tells, loads, unread, sent, ?_⟩
  rintro ⟨extra, messages, -, silent⟩
  rw [messages, List.drop_left] at sent
  obtain ⟨message, rest, rfl, one, -⟩ := List.map_eq_cons_iff.mp sent
  cases read : halfWorld.disk.readText (first.obey (soleWorld "(a)") .start).state.sourcePath with
  | ok text =>
    rw [read] at unread
    cases unread
  | error fault =>
    have none_loads := silent fault read
    rw [List.filter_cons_of_pos (Prod.mk.inj one).1] at none_loads
    contradiction

end Engine
end EvalDesk
