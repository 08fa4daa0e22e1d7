import CodeResearch.Library.Machine
import CodeResearch.Library.Table

/-!
# The global function library

Runs of `process_library_calls` share one table. Each lookup and each insert of a run is a
transaction of its own, and the transactions of any number of runs interleave.
-/
namespace CodeResearch.Analysis.LibraryFunctions

/-- What a template says about a function. -/
structure Template where
  summary : String
  beginnerExplanation : String
  parametersExplanation : List String
  returnExplanation : Option String
  commonUsage : Option String
  codeExample : Option String
  shapeOrTensorNote : Option String
  commonMistakes : List String
deriving DecidableEq

inductive SourceType
  | templateGenerated | manual | officialDoc | llmGenerated
deriving DecidableEq

inductive Confidence
  | high | medium | low
deriving DecidableEq

structure LibraryFunctionDoc where
  id : Option ℕ := none
  canonicalName : String
  displayName : String
  packageName : Option String
  category : Option String
  sourceType : SourceType
  template : Template
  relatedFunctions : List String
  officialDocUrl : Option String
  confidence : Confidence
  createdAt : Option String
  updatedAt : Option String
deriving DecidableEq

/-- A call with the fields that are read, the flag, and its other fields. -/
structure Call (ρ : Type) where
  canonicalName : Option String
  displayName : Option String := none
  packageName : Option String := none
  category : Option String := none
  confidence : Option String := none
  filePath : Option String := none
  isRecorded : Option Bool := none
  rest : ρ
deriving DecidableEq

structure ProcessError where
  path : String
  errorType : String
  message : String
deriving DecidableEq

variable {ρ : Type}

/-- `call.get("canonical_name", "")`. -/
def Call.name (call : Call ρ) : String := call.canonicalName.getD ""

/-- `_should_skip_call`. -/
def Call.Skipped (call : Call ρ) : Prop :=
  call.name = "" ∨ call.confidence = some "low" ∨ call.category = some "unknown"

instance (call : Call ρ) : Decidable call.Skipped := inferInstanceAs (Decidable (_ ∨ _ ∨ _))

/-- `value or default`. -/
def orText (value : Option String) (fallback : String) : String :=
  if value.getD "" = "" then fallback else value.getD ""

/-- `create_doc_from_call`, with the texts of `_template_for_category`. -/
def createDocFromCall (templateForCategory : String → String → String → Template)
    (call : Call ρ) (now : String) : LibraryFunctionDoc :=
  let category := orText call.category "third_party"
  let displayName := orText call.displayName call.name
  { canonicalName := call.name
    displayName := displayName
    packageName := call.packageName
    category := some category
    sourceType := .templateGenerated
    template := templateForCategory category call.name displayName
    relatedFunctions := []
    officialDocUrl := none
    confidence := if call.confidence = some "high" then .high else .medium
    createdAt := some now
    updatedAt := some now }

/-- A row, with the run that inserted it, which the table itself does not store. -/
structure Row where
  doc : LibraryFunctionDoc
  run : Option ℕ
deriving DecidableEq

def Row.name (row : Row) : String := row.doc.canonicalName

structure Library where
  rows : Table Row.name
  nextId : ℕ

namespace Library

def Recorded (lib : Library) (name : String) : Prop := name ∈ lib.rows.rows.map Row.name

/-- `get_by_canonical_name`. -/
def getByCanonicalName (lib : Library) (name : String) : Option LibraryFunctionDoc :=
  (lib.rows.find? name).map Row.doc

/-- The `INSERT`, refused when the name is taken. -/
def insert (lib : Library) (doc : LibraryFunctionDoc) (run : ℕ) :
    Option (Library × LibraryFunctionDoc) :=
  let stored := { doc with id := some lib.nextId }
  (lib.rows.insert ⟨stored, some run⟩).map fun rows => (⟨rows, lib.nextId + 1⟩, stored)

end Library

/-- What the run does next for its first remaining call: it has found no row and made a
document, `upsert_library_function_doc` has found no row either, or the insert was refused. -/
inductive Phase
  | next
  | missing (doc : LibraryFunctionDoc)
  | absent (doc : LibraryFunctionDoc)
  | conflict (doc : LibraryFunctionDoc)
deriving DecidableEq

/-- The local variables of `process_library_calls`. -/
structure Run (ρ : Type) where
  libraryCalls : List (Call ρ)
  remaining : List (Call ρ)
  docsByName : Table LibraryFunctionDoc.canonicalName := .empty
  newDocsByName : Table LibraryFunctionDoc.canonicalName := .empty
  skipped : List (Call ρ) := []
  updatedCalls : List (Call ρ) := []
  errors : List ProcessError := []
  phase : Phase := .next

namespace Run

def start (calls : List (Call ρ)) : Run ρ := { libraryCalls := calls, remaining := calls }

def wait (r : Run ρ) (phase : Phase) : Run ρ := { r with phase := phase }

def skip (r : Run ρ) (call : Call ρ) (rest : List (Call ρ)) : Run ρ :=
  let updated := { call with isRecorded := some false }
  { r with
    remaining := rest
    skipped := r.skipped ++ [updated]
    updatedCalls := r.updatedCalls ++ [updated] }

def record (r : Run ρ) (call : Call ρ) (rest : List (Call ρ)) (doc : LibraryFunctionDoc) : Run ρ :=
  { r with
    remaining := rest
    docsByName := r.docsByName.put doc
    updatedCalls := r.updatedCalls ++ [{ call with isRecorded := some true }]
    phase := .next }

/-- What `upsert_library_function_doc` returned is new to the run. -/
def adopt (r : Run ρ) (call : Call ρ) (rest : List (Call ρ)) (doc : LibraryFunctionDoc) : Run ρ :=
  { r.record call rest doc with newDocsByName := r.newDocsByName.put doc }

/-- The `except` clause. -/
def fail (r : Run ρ) (call : Call ρ) (rest : List (Call ρ)) (failure : String × String) : Run ρ :=
  { r with
    remaining := rest
    updatedCalls := r.updatedCalls ++ [{ call with isRecorded := some false }]
    errors := r.errors ++ [{
      path := call.filePath.getD ""
      errorType := failure.1
      message := "Failed to process library function " ++ call.name ++ ": " ++ failure.2 }]
    phase := .next }

def advance (templateForCategory : String → String → String → Template) (lib : Library)
    (index : ℕ) (now : String) (failure : Option (String × String)) (r : Run ρ) :
    Library × Run ρ :=
  match r.remaining with
  | [] => (lib, r)
  | call :: rest =>
    match r.phase, failure with
    | .next, failure =>
      if call.Skipped then (lib, r.skip call rest)
      else
        match r.docsByName.find? call.name, failure with
        | some doc, _ => (lib, r.record call rest doc)
        | none, some failure => (lib, r.fail call rest failure)
        | none, none =>
          match lib.getByCanonicalName call.name with
          | some doc => (lib, r.record call rest doc)
          | none =>
            (lib, r.wait (.missing (createDocFromCall templateForCategory call now)))
    | _, some failure => (lib, r.fail call rest failure)
    | .missing doc, none =>
      match lib.getByCanonicalName doc.canonicalName with
      | some existing => (lib, r.adopt call rest existing)
      | none => (lib, r.wait (.absent { doc with
          createdAt := some (orText doc.createdAt now)
          updatedAt := some (orText doc.updatedAt now) }))
    | .absent doc, none =>
      match lib.insert doc index with
      | some (lib', stored) => (lib', r.adopt call rest stored)
      | none => (lib, r.wait (.conflict doc))
    | .conflict doc, none =>
      match lib.getByCanonicalName doc.canonicalName with
      | some existing => (lib, r.adopt call rest existing)
      | none => (lib, r.fail call rest ("IntegrityError",
          "UNIQUE constraint failed: library_functions.canonical_name"))

end Run

structure System (ρ : Type) where
  library : Library
  runs : List (Run ρ)

inductive Label (ρ : Type)
  | start (calls : List (Call ρ))
  | run (index : ℕ) (now : String) (failure : Option (String × String))

def step (templateForCategory : String → String → String → Template) (s : System ρ) :
    Label ρ → System ρ
  | .start calls => { s with runs := s.runs ++ [Run.start calls] }
  | .run index now failure =>
    match s.runs[index]? with
    | none => s
    | some r =>
      let next := r.advance templateForCategory s.library index now failure
      ⟨next.1, s.runs.set index next.2⟩

def initial (docs : Table LibraryFunctionDoc.canonicalName) (nextId : ℕ) : System ρ where
  library :=
    { rows := ⟨docs.rows.map fun doc => ⟨doc, none⟩, by
        rw [List.map_map]
        exact docs.nodup⟩
      nextId := nextId }
  runs := []

def Call.unflagged (call : Call ρ) : Call ρ := { call with isRecorded := none }

variable (templateForCategory : String → String → String → Template)

/-- The library records each name once, and the runs report so. -/
structure Correct (s : System ρ) : Prop where
  unique : (s.library.rows.rows.map Row.name).Nodup
  newOnce : ∀ i r, s.runs[i]? = some r → ∀ name,
    name ∈ r.newDocsByName.rows.map LibraryFunctionDoc.canonicalName ↔
      ∃ row ∈ s.library.rows.rows, row.name = name ∧ row.run = some i
  recorded : ∀ r ∈ s.runs, ∀ call ∈ r.updatedCalls, call.isRecorded = some true →
    s.library.Recorded call.name
  calls : ∀ r ∈ s.runs, r.remaining = [] →
    r.updatedCalls.map Call.unflagged = r.libraryCalls.map Call.unflagged
  rerun : ∀ r ∈ s.runs, r.remaining = [] → ∀ labels : List (Label ρ),
    let t := labels.foldl (step templateForCategory)
      (step templateForCategory s (.start r.libraryCalls))
    s.library.rows.rows <+: t.library.rows.rows ∧
      (∀ row ∈ t.library.rows.rows, row.run ≠ some s.runs.length) ∧
      ∀ r', t.runs[s.runs.length]? = some r' → r'.newDocsByName.rows = []

def Run.Awaits (r : Run ρ) (name : String) : Prop :=
  ∃ doc, (r.phase = .missing doc ∨ r.phase = .absent doc) ∧ doc.canonicalName = name

/-- A transaction fails only where the name has a row already, and a run inserts a name only
while no other run has found it missing. -/
def Undisturbed (s : System ρ) : Label ρ → Prop
  | .start _ => True
  | .run index _ failure => ∀ r, s.runs[index]? = some r →
    (failure ≠ none → ∀ call ∈ r.remaining.head?, ¬ call.Skipped →
      s.library.Recorded call.name) ∧
    ∀ doc, r.phase = .absent doc → ∀ k r', k ≠ index → s.runs[k]? = some r' →
      ¬ r'.Awaits doc.canonicalName

section Advance

variable {lib : Library} {r : Run ρ} {call : Call ρ} {rest : List (Call ρ)}
  {name : String}

theorem getByCanonicalName_eq_none_iff :
    lib.getByCanonicalName name = none ↔ ¬ lib.Recorded name := by
  rw [Library.getByCanonicalName, Option.map_eq_none_iff, Table.find?_eq_none_iff, Library.Recorded]

variable {doc : LibraryFunctionDoc} {lib' : Library}

theorem canonicalName_of_get (h : lib.getByCanonicalName name = some doc) :
    doc.canonicalName = name ∧ lib.Recorded name := by
  obtain ⟨row, hrow, rfl⟩ := Option.map_eq_some_iff.mp h
  have hname := Table.find?_key hrow
  exact ⟨hname, List.mem_map.mpr ⟨row, Table.find?_mem hrow, hname⟩⟩

variable {index : ℕ} {stored : LibraryFunctionDoc}

theorem insert_eq_some (h : lib.insert doc index = some (lib', stored)) :
    ¬ lib.Recorded doc.canonicalName ∧ stored.canonicalName = doc.canonicalName ∧
      lib'.rows.rows = lib.rows.rows ++ [⟨stored, some index⟩] := by
  obtain ⟨rows, hrows, heq⟩ := Option.map_eq_some_iff.mp h
  obtain ⟨rfl, rfl⟩ := Prod.mk.inj heq
  exact ⟨Table.insert_fresh hrows, rfl, Table.rows_insert hrows⟩

theorem exists_insert (h : ¬ lib.Recorded doc.canonicalName)
    (index : ℕ) : ∃ lib' stored, lib.insert doc index = some (lib', stored) := by
  obtain ⟨rows, hrows⟩ :=
    Table.exists_insert (t := lib.rows) (r := ⟨{ doc with id := some lib.nextId }, some index⟩) h
  exact ⟨_, _, Option.map_eq_some_iff.mpr ⟨rows, hrows, rfl⟩⟩

theorem recorded_insert_iff (h : lib.insert doc index = some (lib', stored)) :
    lib'.Recorded name ↔ lib.Recorded name ∨ name = doc.canonicalName := by
  obtain ⟨_, hname, hrows⟩ := insert_eq_some h
  rw [Library.Recorded, hrows, List.map_append, List.mem_append, List.map_singleton,
    List.mem_singleton, Row.name, hname, Library.Recorded]

theorem mem_keys_put (t : Table LibraryFunctionDoc.canonicalName) (doc : LibraryFunctionDoc) :
    name ∈ (t.put doc).rows.map LibraryFunctionDoc.canonicalName ↔
      name = doc.canonicalName ∨ name ∈ t.rows.map LibraryFunctionDoc.canonicalName := by
  simp only [List.mem_map, Table.mem_put]
  constructor
  · rintro ⟨x, rfl | ⟨hx, _⟩, rfl⟩
    · exact .inl rfl
    · exact .inr ⟨x, hx, rfl⟩
  · rintro (rfl | ⟨x, hx, rfl⟩)
    · exact ⟨doc, .inl rfl, rfl⟩
    · by_cases hname : x.canonicalName = doc.canonicalName
      · exact ⟨doc, .inl rfl, hname.symm⟩
      · exact ⟨x, .inr ⟨hx, hname⟩, rfl⟩

structure Sound (lib : Library) (r : Run ρ) : Prop where
  docs : ∀ doc ∈ r.docsByName.rows, lib.Recorded doc.canonicalName
  updated : ∀ call ∈ r.updatedCalls, ¬ call.Skipped ∨ call.isRecorded = some true →
    lib.Recorded call.name
  calls : (r.updatedCalls ++ r.remaining).map Call.unflagged = r.libraryCalls.map Call.unflagged
  awaits : ∀ name, r.Awaits name →
    r.remaining.head?.map Call.name = some name ∧ ¬ lib.Recorded name
  settled : ∀ doc, r.phase ≠ .conflict doc

theorem not_awaits_of_next (h : r.phase = .next) : ¬ r.Awaits name := by
  rintro ⟨doc, hphase | hphase, _⟩ <;> (rw [h] at hphase; cases hphase)

theorem sound_done (r' : Run ρ) (h : Sound lib r) (hremaining : r.remaining = call :: rest)
    {flag : Bool} (hupdated : r'.updatedCalls =
      r.updatedCalls ++ [{ call with isRecorded := some flag }])
    (hrest : r'.remaining = rest) (hcalls : r'.libraryCalls = r.libraryCalls)
    (hphase : r'.phase = .next) (hdocs : ∀ doc ∈ r'.docsByName.rows, lib.Recorded doc.canonicalName)
    (hflag : ¬ call.Skipped ∨ flag = true → lib.Recorded call.name) : Sound lib r' where
  docs := hdocs
  updated c hc hcond := by
    rw [hupdated] at hc
    rcases List.mem_append.mp hc with hc | hc
    · exact h.updated c hc hcond
    · rw [List.mem_singleton] at hc
      subst hc
      refine hflag (hcond.imp id fun heq => ?_)
      exact Option.some.inj heq
  calls := by
    have hold := h.calls
    rw [hremaining] at hold
    rw [hupdated, hrest, hcalls, ← hold, List.append_assoc]
    simp only [List.map_append, List.map_cons, List.singleton_append, Call.unflagged]
  awaits _ hawaits := absurd hawaits (not_awaits_of_next hphase)
  settled _ := by
    rw [hphase]
    nofun

/-- A run that waits with a document has found no row of its name. -/
theorem sound_wait (h : Sound lib r) (hremaining : r.remaining = call :: rest) {phase : Phase}
    (hphase : phase = .missing doc ∨ phase = .absent doc)
    (hname : doc.canonicalName = call.name) (hnot : ¬ lib.Recorded call.name) :
    Sound lib (r.wait phase) where
  docs := h.docs
  updated := h.updated
  calls := h.calls
  awaits name hawaits := by
    have heq : name = call.name := by
      obtain ⟨doc', hdoc, rfl⟩ := hawaits
      rcases hphase with rfl | rfl <;> (rcases hdoc with hdoc | hdoc <;> cases hdoc) <;>
        exact hname
    rw [heq]
    refine ⟨?_, hnot⟩
    change r.remaining.head?.map Call.name = some call.name
    rw [hremaining]
    rfl
  settled doc' heq := by
    rcases hphase with rfl | rfl <;> cases heq

theorem sound_record (h : Sound lib r) (hremaining : r.remaining = call :: rest)
    (hname : doc.canonicalName = call.name)
    (hrecorded : lib.Recorded call.name) : Sound lib (r.record call rest doc) := by
  apply sound_done (r.record call rest doc) h hremaining rfl rfl rfl rfl
  · intro doc' hdoc
    rcases (Table.mem_put _ _ _).mp hdoc with rfl | ⟨hdoc, _⟩
    · exact hname ▸ hrecorded
    · exact h.docs doc' hdoc
  · exact fun _ => hrecorded

theorem Sound.mono (h : Sound lib r) (hmono : ∀ name, lib.Recorded name → lib'.Recorded name)
    (hawaits : ∀ name, r.Awaits name → ¬ lib'.Recorded name) : Sound lib' r where
  docs doc hdoc := hmono _ (h.docs doc hdoc)
  updated call hcall hcond := hmono _ (h.updated call hcall hcond)
  calls := h.calls
  awaits name hname := ⟨(h.awaits name hname).1, hawaits name hname⟩
  settled := h.settled

theorem Sound.released (h : Sound lib r)
    (hmono : ∀ name, lib.Recorded name → lib'.Recorded name) : Sound lib' (r.wait .next) where
  docs doc hdoc := hmono _ (h.docs doc hdoc)
  updated call hcall hcond := hmono _ (h.updated call hcall hcond)
  calls := h.calls
  awaits _ hawaits := absurd hawaits (not_awaits_of_next rfl)
  settled _ heq := by cases heq

/-- An undisturbed transaction leaves the library, or inserts what the run reports as new. -/
theorem advance_cases (h : Sound lib r) (index : ℕ) (now : String)
    {failure : Option (String × String)}
    (hfailure : failure ≠ none → ∀ call ∈ r.remaining.head?, ¬ call.Skipped →
      lib.Recorded call.name) :
    let next := r.advance templateForCategory lib index now failure
    (next.1 = lib ∧ next.2.newDocsByName = r.newDocsByName ∧ Sound lib next.2) ∨
      ∃ doc stored, r.phase = .absent doc ∧ lib.insert doc index = some (next.1, stored) ∧
        next.2.newDocsByName = r.newDocsByName.put stored ∧ Sound next.1 next.2 := by
  dsimp only
  rw [Run.advance]
  cases hremaining : r.remaining with
  | nil => exact .inl ⟨rfl, rfl, h⟩
  | cons call rest =>
    dsimp only
    have hfail (failure' : String × String)
        (hcond : ¬ call.Skipped → lib.Recorded call.name) :
        Sound lib (r.fail call rest failure') := by
      apply sound_done (r.fail call rest failure') h hremaining rfl rfl rfl rfl h.docs
      exact fun hor => hcond (hor.resolve_right Bool.false_ne_true)
    have hfailed {failure' : String × String} (heq : failure = some failure') :
        ¬ call.Skipped → lib.Recorded call.name := by
      apply hfailure
      · rw [heq]
        nofun
      · rw [hremaining]
        rfl
    cases hphase : r.phase with
    | next =>
      dsimp only
      split_ifs with hskipped
      · refine .inl ⟨rfl, rfl, ?_⟩
        apply sound_done (r.skip call rest) h hremaining rfl rfl rfl hphase h.docs
        exact fun hor => absurd hskipped (hor.resolve_right Bool.false_ne_true)
      cases hdoc : r.docsByName.find? call.name with
      | some doc =>
        have hname := Table.find?_key hdoc
        exact .inl ⟨rfl, rfl, sound_record h hremaining hname
          (hname ▸ h.docs doc (Table.find?_mem hdoc))⟩
      | none =>
        cases hf : failure with
        | some failure' => exact .inl ⟨rfl, rfl, hfail failure' (hfailed hf)⟩
        | none =>
          dsimp only
          cases hget : lib.getByCanonicalName call.name with
          | some doc =>
            obtain ⟨hname, hrecorded⟩ := canonicalName_of_get hget
            exact .inl ⟨rfl, rfl, sound_record h hremaining hname hrecorded⟩
          | none => exact .inl ⟨rfl, rfl, sound_wait h hremaining (.inl rfl) rfl
              (getByCanonicalName_eq_none_iff.mp hget)⟩
    | missing doc =>
      obtain ⟨hhead, hnot⟩ := h.awaits doc.canonicalName ⟨doc, .inl hphase, rfl⟩
      have hname : call.name = doc.canonicalName := by
        rw [hremaining] at hhead
        exact Option.some.inj hhead
      cases hf : failure with
      | some failure' => exact .inl ⟨rfl, rfl, hfail failure' (hfailed hf)⟩
      | none =>
        dsimp only
        rw [getByCanonicalName_eq_none_iff.mpr hnot]
        exact .inl ⟨rfl, rfl, sound_wait h hremaining (.inr rfl) hname.symm (hname ▸ hnot)⟩
    | absent doc =>
      obtain ⟨hhead, hnot⟩ := h.awaits doc.canonicalName ⟨doc, .inr hphase, rfl⟩
      have hname : call.name = doc.canonicalName := by
        rw [hremaining] at hhead
        exact Option.some.inj hhead
      cases hf : failure with
      | some failure' => exact .inl ⟨rfl, rfl, hfail failure' (hfailed hf)⟩
      | none =>
        obtain ⟨lib', stored, hinsert⟩ := exists_insert hnot index
        dsimp only
        rw [hinsert]
        refine .inr ⟨doc, stored, rfl, hinsert, rfl, ?_⟩
        have hmono (name : String) (hrecorded : lib.Recorded name) : lib'.Recorded name :=
          (recorded_insert_iff hinsert).mpr (.inl hrecorded)
        have hrecorded : lib'.Recorded call.name :=
          (recorded_insert_iff hinsert).mpr (.inr hname)
        have hstored := (insert_eq_some hinsert).2.1.trans hname.symm
        apply sound_done (r.adopt call rest stored) (h.released hmono) hremaining rfl rfl rfl rfl
        · intro doc' hdoc
          rcases (Table.mem_put _ _ _).mp hdoc with rfl | ⟨hdoc, _⟩
          · exact hstored ▸ hrecorded
          · exact hmono _ (h.docs doc' hdoc)
        · exact fun _ => hrecorded
    | conflict doc => exact absurd hphase (h.settled doc)

end Advance

section Invariant

variable {s : System ρ}

/-- What holds of the library and its runs while no transaction is disturbed. -/
structure Inv (s : System ρ) : Prop where
  sound : ∀ r ∈ s.runs, Sound s.library r
  newOnce : ∀ i r, s.runs[i]? = some r → ∀ name,
    name ∈ r.newDocsByName.rows.map LibraryFunctionDoc.canonicalName ↔
      ∃ row ∈ s.library.rows.rows, row.name = name ∧ row.run = some i
  known : ∀ row ∈ s.library.rows.rows, ∀ i, row.run = some i → i < s.runs.length

theorem inv_initial (docs : Table LibraryFunctionDoc.canonicalName) (nextId : ℕ) :
    Inv (initial docs nextId : System ρ) where
  sound r hr := by cases hr
  newOnce i r hr := by cases hr
  known row hrow i hi := by
    obtain ⟨doc, _, rfl⟩ := List.mem_map.mp hrow
    cases hi

theorem inv_start (h : Inv s) (calls : List (Call ρ)) :
    Inv (step templateForCategory s (.start calls)) where
  sound r hr := by
    rcases List.mem_append.mp hr with hr | hr
    · exact h.sound r hr
    · rw [List.mem_singleton.mp hr]
      exact ⟨fun _ hdoc => absurd hdoc List.not_mem_nil,
        fun _ hcall => absurd hcall List.not_mem_nil, rfl,
        fun _ hawaits => absurd hawaits (not_awaits_of_next rfl), fun _ heq => by cases heq⟩
  newOnce i r hr name := by
    rcases Nat.lt_or_ge i s.runs.length with hlt | hge
    · rw [step, List.getElem?_append_left hlt] at hr
      exact h.newOnce i r hr name
    · have hnone : ¬ ∃ row ∈ s.library.rows.rows, row.name = name ∧ row.run = some i := by
        rintro ⟨row, hrow, _, hrun⟩
        exact absurd (h.known row hrow i hrun) (by omega)
      rw [step, List.getElem?_append_right hge] at hr
      rw [List.mem_singleton.mp (List.mem_of_getElem? hr)]
      exact iff_of_false List.not_mem_nil hnone
  known row hrow i hi := by
    rw [step, List.length_append]
    exact Nat.lt_add_right _ (h.known row hrow i hi)

variable {index : ℕ} {r r' : Run ρ}

/-- A transaction that leaves the library keeps the invariant. -/
theorem Inv.quiet (h : Inv s) (hr : s.runs[index]? = some r)
    (hnew : r'.newDocsByName = r.newDocsByName) (hsound : Sound s.library r') :
    Inv ⟨s.library, s.runs.set index r'⟩ where
  sound q hq := by
    rcases List.mem_or_eq_of_mem_set hq with hq | rfl
    · exact h.sound q hq
    · exact hsound
  newOnce i q hq name := by
    rw [List.getElem?_set] at hq
    split_ifs at hq with heq hlt
    · cases hq
      rw [hnew, ← heq]
      exact h.newOnce index r hr name
    · exact h.newOnce i q hq name
  known row hrow i hi := by
    rw [List.length_set]
    exact h.known row hrow i hi

/-- An insert that no other run awaits keeps the invariant. -/
theorem Inv.insert (h : Inv s) (hr : s.runs[index]? = some r)
    {doc stored : LibraryFunctionDoc} {lib : Library}
    (hinsert : s.library.insert doc index = some (lib, stored))
    (hnew : r'.newDocsByName = r.newDocsByName.put stored) (hsound : Sound lib r')
    (hothers : ∀ k q, k ≠ index → s.runs[k]? = some q → ¬ q.Awaits doc.canonicalName) :
    Inv ⟨lib, s.runs.set index r'⟩ := by
  obtain ⟨_, hname, hrows⟩ := insert_eq_some hinsert
  have hlt : index < s.runs.length := (List.getElem?_eq_some_iff.mp hr).1
  have hother (k : ℕ) (q : Run ρ) (hk : k ≠ index) (hq : s.runs[k]? = some q) : Sound lib q := by
    have hold := h.sound q (List.mem_of_getElem? hq)
    refine hold.mono (fun name hrecorded => (recorded_insert_iff hinsert).mpr (.inl hrecorded)) ?_
    intro name hawaits hrecorded
    rcases (recorded_insert_iff hinsert).mp hrecorded with hrecorded | rfl
    · exact (hold.awaits name hawaits).2 hrecorded
    · exact hothers k q hk hq hawaits
  refine ⟨fun q hq => ?_, fun i q hq name => ?_, fun row hrow i hi => ?_⟩
  · obtain ⟨k, hk⟩ := List.mem_iff_getElem?.mp hq
    dsimp only at hk
    rw [List.getElem?_set] at hk
    split_ifs at hk with heq
    · cases hk
      exact hsound
    · exact hother k q (Ne.symm heq) hk
  · dsimp only at hq ⊢
    rw [List.getElem?_set] at hq
    have hsplit : (∃ row ∈ lib.rows.rows, row.name = name ∧ row.run = some i) ↔
        (∃ row ∈ s.library.rows.rows, row.name = name ∧ row.run = some i) ∨
          stored.canonicalName = name ∧ index = i := by
      simp only [hrows, List.mem_append, List.mem_singleton, or_and_right, exists_or,
        exists_eq_left, Row.name, Option.some.injEq]
    rw [hsplit]
    split_ifs at hq with heq
    · cases hq
      rw [hnew, mem_keys_put, ← heq, h.newOnce index r hr name, or_comm, eq_comm,
        and_iff_left rfl]
    · rw [h.newOnce i q hq name, or_iff_left fun hand => heq hand.2]
  · dsimp only at hrow ⊢
    rw [hrows] at hrow
    rw [List.length_set]
    rcases List.mem_append.mp hrow with hrow | hrow
    · exact h.known row hrow i hi
    · rw [List.mem_singleton.mp hrow] at hi
      cases hi
      exact hlt

/-- An undisturbed step keeps the invariant. -/
theorem inv_step (h : Inv s) {label : Label ρ} (hguard : Undisturbed s label) :
    Inv (step templateForCategory s label) := by
  cases label with
  | start calls => exact inv_start templateForCategory h calls
  | run index now failure =>
    rw [step]
    cases hr : s.runs[index]? with
    | none => exact h
    | some r =>
      obtain ⟨hfailure, hothers⟩ := hguard r hr
      have hsound := h.sound r (List.mem_of_getElem? hr)
      rcases advance_cases templateForCategory hsound index now hfailure with ⟨hlib, hnew, hsound'⟩ | ⟨doc, stored, hphase, hinsert, hnew, hsound'⟩
      · dsimp only
        rw [hlib]
        exact h.quiet hr hnew hsound'
      · exact h.insert hr hinsert hnew hsound' (hothers doc hphase)

end Invariant

section Rerun

variable {lib : Library} {r : Run ρ}

/-- All that the run may still look up is there, and it has reported nothing. -/
structure Quiet (lib : Library) (r : Run ρ) : Prop where
  remaining : ∀ call ∈ r.remaining, ¬ call.Skipped → lib.Recorded call.name
  phase : r.phase = .next
  new : r.newDocsByName.rows = []

/-- Any transaction leaves the library or inserts one row. -/
theorem advance_library (index : ℕ) (now : String) (failure : Option (String × String)) :
    let next := r.advance templateForCategory lib index now failure
    next.1 = lib ∨ ∃ doc stored, lib.insert doc index = some (next.1, stored) := by
  dsimp only
  rw [Run.advance]
  cases r.remaining with
  | nil => exact .inl rfl
  | cons call rest =>
    dsimp only
    cases r.phase with
    | next =>
      dsimp only
      split_ifs
      · exact .inl rfl
      cases r.docsByName.find? call.name with
      | some doc => exact .inl rfl
      | none =>
        cases failure with
        | some failure => exact .inl rfl
        | none => cases hget : lib.getByCanonicalName call.name <;> exact .inl rfl
    | missing doc | conflict doc =>
      cases failure with
      | some failure => exact .inl rfl
      | none =>
        dsimp only
        cases hget : lib.getByCanonicalName doc.canonicalName <;> exact .inl rfl
    | absent doc =>
      cases failure with
      | some failure => exact .inl rfl
      | none =>
        dsimp only
        cases hinsert : lib.insert doc index with
        | some next => exact .inr ⟨doc, next.2, hinsert⟩
        | none => exact .inl rfl

/-- A quiet run stays quiet and leaves the library. -/
theorem Quiet.advance (h : Quiet lib r) (index : ℕ) (now : String)
    (failure : Option (String × String)) :
    (r.advance templateForCategory lib index now failure).1 = lib ∧
      Quiet lib (r.advance templateForCategory lib index now failure).2 := by
  rw [Run.advance]
  cases hremaining : r.remaining with
  | nil => exact ⟨rfl, h⟩
  | cons call rest =>
    have hall := h.remaining
    rw [hremaining] at hall
    obtain ⟨hcall, hrest⟩ := List.forall_mem_cons.mp hall
    dsimp only
    rw [h.phase]
    dsimp only
    split_ifs with hskipped
    · exact ⟨rfl, hrest, h.phase, h.new⟩
    · cases r.docsByName.find? call.name with
      | some doc => exact ⟨rfl, hrest, rfl, h.new⟩
      | none =>
        cases failure with
        | some failure => exact ⟨rfl, hrest, rfl, h.new⟩
        | none =>
          dsimp only
          cases hget : lib.getByCanonicalName call.name with
          | some doc => exact ⟨rfl, hrest, rfl, h.new⟩
          | none => exact absurd (hcall hskipped) (getByCanonicalName_eq_none_iff.mp hget)

structure Silent (base : Library) (index : ℕ) (s : System ρ) : Prop where
  grown : base.rows.rows <+: s.library.rows.rows
  none : ∀ row ∈ s.library.rows.rows, row.run ≠ some index
  quiet : ∀ r, s.runs[index]? = some r → Quiet s.library r
  started : index < s.runs.length

variable {s : System ρ}

variable {base : Library} {index : ℕ}

theorem silent_step (h : Silent base index s)
    (label : Label ρ) : Silent base index (step templateForCategory s label) := by
  cases label with
  | start calls =>
    refine ⟨h.grown, h.none, fun r hr => ?_, ?_⟩
    · rw [step, List.getElem?_append_left h.started] at hr
      exact h.quiet r hr
    · rw [step, List.length_append]
      exact Nat.lt_add_right _ h.started
  | run k now failure =>
    rw [step]
    cases hr : s.runs[k]? with
    | none => exact h
    | some r =>
      dsimp only
      by_cases hk : k = index
      · obtain ⟨hlib, hquiet⟩ := (h.quiet r (hk ▸ hr)).advance templateForCategory k now failure
        rw [hlib]
        refine ⟨h.grown, h.none, fun q hq => ?_, ?_⟩
        · dsimp only at hq
          rw [hk, List.getElem?_set_self h.started] at hq
          cases hq
          exact hk ▸ hquiet
        · rw [List.length_set]
          exact h.started
      · have hother (q : Run ρ) (hq : (s.runs.set k
            (r.advance templateForCategory s.library k now failure).2)[index]? = some q) :
            Quiet s.library q := by
          rw [List.getElem?_set_ne hk] at hq
          exact h.quiet q hq
        rcases @advance_library ρ templateForCategory s.library r k now failure with
          hlib | ⟨doc, stored, hinsert⟩
        · rw [hlib]
          refine ⟨h.grown, h.none, hother, ?_⟩
          rw [List.length_set]
          exact h.started
        · obtain ⟨_, _, hrows⟩ := insert_eq_some hinsert
          refine ⟨?_, fun row hrow => ?_, fun q hq => ?_, ?_⟩
          · dsimp only
            rw [hrows]
            exact h.grown.trans (List.prefix_append _ _)
          · dsimp only at hrow
            rw [hrows] at hrow
            rcases List.mem_append.mp hrow with hrow | hrow
            · exact h.none row hrow
            · rw [List.mem_singleton.mp hrow]
              exact fun heq => hk (Option.some.inj heq)
          · have hquiet := hother q hq
            refine ⟨fun call hcall hskipped => ?_, hquiet.phase, hquiet.new⟩
            exact (recorded_insert_iff hinsert).mpr (.inl (hquiet.remaining call hcall hskipped))
          · rw [List.length_set]
            exact h.started

theorem silent_foldl (labels : List (Label ρ))
    (h : Silent base index s) : Silent base index (labels.foldl (step templateForCategory) s) := by
  induction labels generalizing s with
  | nil => exact h
  | cons label labels ih => exact ih (silent_step templateForCategory h label)

theorem recorded_of_finished (h : Inv s) (hr : r ∈ s.runs)
    (hremaining : r.remaining = []) {call : Call ρ} (hcall : call ∈ r.libraryCalls)
    (hskipped : ¬ call.Skipped) : s.library.Recorded call.name := by
  have hcalls := (h.sound r hr).calls
  rw [hremaining, List.append_nil] at hcalls
  have hmem : call.unflagged ∈ r.updatedCalls.map Call.unflagged := by
    rw [hcalls]
    exact List.mem_map_of_mem hcall
  obtain ⟨updated, hupdated, heq⟩ := List.mem_map.mp hmem
  have hname : updated.unflagged.name = call.unflagged.name := by rw [heq]
  change s.library.Recorded call.unflagged.name
  rw [← hname]
  refine (h.sound r hr).updated updated hupdated (.inl fun hskip => hskipped ?_)
  have hsame : updated.unflagged.Skipped ↔ call.unflagged.Skipped := by rw [heq]
  exact hsame.mp hskip

theorem silent_start (h : Inv s) (hr : r ∈ s.runs) (hremaining : r.remaining = []) :
    Silent s.library s.runs.length (step templateForCategory s (.start r.libraryCalls)) where
  grown := List.prefix_refl _
  none row hrow hrun := absurd (h.known row hrow _ hrun) (Nat.lt_irrefl _)
  quiet q hq := by
    rw [step, List.getElem?_append_right (Nat.le_refl _)] at hq
    rw [List.mem_singleton.mp (List.mem_of_getElem? hq)]
    exact ⟨fun call hcall => recorded_of_finished h hr hremaining hcall, rfl, rfl⟩
  started := by
    rw [step, List.length_append]
    exact Nat.lt_add_one _

theorem correct_of_inv (h : Inv s) : Correct templateForCategory s where
  unique := s.library.rows.nodup
  newOnce := h.newOnce
  recorded r hr call hcall hflag := (h.sound r hr).updated call hcall (.inr hflag)
  calls r hr hremaining := by
    have hcalls := (h.sound r hr).calls
    rwa [hremaining, List.append_nil] at hcalls
  rerun r hr hremaining labels := by
    have hsilent := silent_foldl templateForCategory labels
      (silent_start templateForCategory h hr hremaining)
    exact ⟨hsilent.grown, hsilent.none, fun q hq => (hsilent.quiet q hq).new⟩

end Rerun

/-- In undisturbed runs the library records each name once, and the runs report so. -/
theorem library_correct (docs : Table LibraryFunctionDoc.canonicalName) (nextId : ℕ)
    {labels : List (Label ρ)} {s : System ρ}
    (h : (Machine.total (step templateForCategory)).Run Undisturbed (initial docs nextId) labels s) :
    Correct templateForCategory s := by
  refine correct_of_inv templateForCategory (h.invariant Inv ?_ (inv_initial docs nextId))
  intro t label u hinv hguard hstep
  cases hstep
  exact inv_step templateForCategory hinv hguard

namespace Sample

def template (_ name _ : String) : Template where
  summary := "`" ++ name ++ "`"
  beginnerExplanation := ""
  parametersExplanation := []
  returnExplanation := none
  commonUsage := none
  codeExample := none
  shapeOrTensorNote := none
  commonMistakes := []

def array : Call Unit where
  canonicalName := some "numpy.array"
  category := some "numpy"
  confidence := some "high"
  rest := ()

theorem undisturbed_single {s : System ρ} (h : s.runs.length = 1) (now : String) :
    Undisturbed s (.run 0 now none) := by
  intro r _
  refine ⟨fun hfailure => absurd rfl hfailure, fun doc _ k r' hk hr' => ?_⟩
  have hlt := (List.getElem?_eq_some_iff.mp hr').1
  omega

def single : List (Label Unit) :=
  [.start [array], .run 0 "1" none, .run 0 "2" none, .run 0 "3" none]

theorem library_correct_single :
    Correct template (single.foldl (step template) (initial Table.empty 1)) := by
  apply @library_correct _ template Table.empty 1 single
  refine .cons (t := step template (initial Table.empty 1) (.start [array])) trivial rfl ?_
  refine .cons (undisturbed_single rfl _) rfl ?_
  refine .cons (undisturbed_single rfl _) rfl ?_
  exact .cons (undisturbed_single rfl _) rfl (.nil _)

/-- Both runs find no row, the first one inserts, and the second one gets that row from its
upsert. -/
def crossing : List (Label Unit) :=
  [.start [array], .start [array], .run 0 "1" none, .run 1 "1" none, .run 0 "2" none,
    .run 0 "3" none, .run 1 "4" none]

theorem crossing_reported_twice : ¬ ∀ labels : List (Label Unit),
    Correct template (labels.foldl (step template) (initial Table.empty 1)) := by
  intro h
  have hreported : ((crossing.foldl (step template) (initial Table.empty 1)).runs[1]?.map fun r =>
      r.newDocsByName.rows.map LibraryFunctionDoc.canonicalName) = some ["numpy.array"] := by
    decide +kernel
  obtain ⟨r, hr, hnew⟩ := Option.map_eq_some_iff.mp hreported
  obtain ⟨row, hrow, _, hrun⟩ :=
    ((h crossing).newOnce 1 r hr "numpy.array").mp (hnew ▸ List.mem_singleton_self _)
  have hfirst : ∀ row ∈ (crossing.foldl (step template) (initial Table.empty 1)).library.rows.rows,
      row.run ≠ some 1 := by
    decide +kernel
  exact hfirst row hrow hrun

end Sample

end CodeResearch.Analysis.LibraryFunctions
