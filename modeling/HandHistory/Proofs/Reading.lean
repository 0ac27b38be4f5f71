import HandHistory.Proofs.Players
import HandHistory.Reading

/-!
# Laws of reading

A reading is run by running its parts; the first section says so once for every
part, and nothing below unfolds the monad again.

Two kinds of statement are built on it. `Yields` speaks of the answer alone:
whatever the session, an answer that is no error has a property. `Answers`
speaks of readings that never look at the cursor: from every session whose
roster belongs to a room, the answer is the same, and only roster and events
may differ afterwards. What a whole file says is put together from such parts.
-/

namespace HandHistory

namespace Reading

variable {α β : Type}

@[simp] theorem runFrom_pure (session : Session) (a : α) :
    (pure a : Reading α).runFrom session = (.ok a, session) := rfl

@[simp] theorem runFrom_get (session : Session) :
    (get : Reading Session).runFrom session = (.ok session, session) := rfl

theorem runFrom_bind (session : Session) (x : Reading α) (f : α → Reading β) :
    (x >>= f).runFrom session =
      match x.runFrom session with
      | (.ok a, after) => (f a).runFrom after
      | (.error e, after) => (.error e, after) := by
  show StateT.run (x.run >>= ExceptT.bindCont f) session = _
  rw [StateT.run_bind]
  show (fun r : Except ParseError α × Session => (ExceptT.bindCont f r.1).run r.2)
    (x.runFrom session) = _
  rcases x.runFrom session with ⟨a | e, after⟩ <;> rfl

theorem runFrom_bind_of_ok {session after : Session} {x : Reading α} {a : α}
    (hx : x.runFrom session = (.ok a, after)) (f : α → Reading β) :
    (x >>= f).runFrom session = (f a).runFrom after := by
  rw [runFrom_bind, hx]

theorem runFrom_bind_of_error {session after : Session} {x : Reading α} {e : ParseError}
    (hx : x.runFrom session = (.error e, after)) (f : α → Reading β) :
    (x >>= f).runFrom session = (.error e, after) := by
  rw [runFrom_bind, hx]

/-- A reading with an answer has one in both of its parts. -/
theorem exists_of_runFrom_bind {session after : Session} {x : Reading α} {f : α → Reading β}
    {b : β} (run : (x >>= f).runFrom session = (.ok b, after)) :
    ∃ a between, x.runFrom session = (.ok a, between) ∧
      (f a).runFrom between = (.ok b, after) := by
  rw [runFrom_bind] at run
  rcases hx : x.runFrom session with ⟨e | a, between⟩
  · rw [hx] at run
    cases run
  · rw [hx] at run
    exact ⟨a, between, rfl, run⟩

theorem exists_of_bind_eq_ok {ε : Type} {x : Except ε α} {f : α → Except ε β} {b : β}
    (h : x >>= f = .ok b) : ∃ a, x = .ok a ∧ f a = .ok b := by
  cases x with
  | error e => cases h
  | ok a => exact ⟨a, rfl, h⟩

theorem exists_of_map_eq_ok {ε : Type} {x : Except ε α} {f : α → β} {b : β}
    (h : x.map f = .ok b) : ∃ a, x = .ok a ∧ f a = b := by
  cases x with
  | error e => cases h
  | ok a => exact ⟨a, rfl, Except.ok.inj h⟩

theorem runFrom_map (session : Session) (f : α → β) (x : Reading α) :
    (f <$> x).runFrom session = (f <$> (x.runFrom session).1, (x.runFrom session).2) := by
  rw [← bind_pure_comp, runFrom_bind]
  rcases x.runFrom session with ⟨a | e, after⟩ <;> rfl

@[simp] theorem runFrom_nextLine (session : Session) :
    nextLine.runFrom session =
      (.ok session.cursor.nextLine.1, { session with cursor := session.cursor.nextLine.2 }) := rfl

@[simp] theorem runFrom_seek (wanted : Text → Bool) (session : Session) :
    (seek wanted).runFrom session =
      (.ok (session.cursor.seek wanted).1,
        { session with cursor := (session.cursor.seek wanted).2 }) := rfl

theorem runFrom_enrol (file name : Text) (session : Session) :
    (enrol file name).runFrom session =
      match session.roster.enrol name with
      | .ok (_, roster) => (.ok (), { session with roster })
      | .error source => (.error (.model file source), session) := by
  rw [enrol]
  rw [runFrom_bind_of_ok (runFrom_get session)]
  cases session.roster.enrol name <;> rfl

theorem runFrom_markHero (file name : Text) (session : Session) :
    (markHero file name).runFrom session =
      match session.roster.markHero name with
      | .ok roster => (.ok (), { session with roster })
      | .error source => (.error (.model file source), session) := by
  rw [markHero]
  rw [runFrom_bind_of_ok (runFrom_get session)]
  cases session.roster.markHero name <;> rfl

/-! ## Answers with a property -/

/-- Every answer of the reading that is no error has a property. -/
def Yields (x : Reading α) (post : α → Prop) : Prop :=
  ∀ session a after, x.runFrom session = (.ok a, after) → post a

theorem yields_pure {post : α → Prop} {a : α} (h : post a) : Yields (pure a) post := by
  intro session b after run
  cases run
  exact h

theorem yields_throw (e : ParseError) (post : α → Prop) : Yields (throw e) post := by
  intro session a after run
  cases run

theorem yields_true (x : Reading α) : Yields x fun _ => True := fun _ _ _ _ => trivial

theorem Yields.bind {x : Reading α} {f : α → Reading β} {mid : α → Prop} {post : β → Prop}
    (hx : Yields x mid) (hf : ∀ a, mid a → Yields (f a) post) : Yields (x >>= f) post := by
  intro session b after run
  obtain ⟨a, between, first, second⟩ := exists_of_runFrom_bind run
  exact hf a (hx session a between first) between b after second

/-- What comes first is of no interest for the property. -/
theorem yields_bind {x : Reading α} {f : α → Reading β} {post : β → Prop}
    (hf : ∀ a, Yields (f a) post) : Yields (x >>= f) post :=
  (yields_true x).bind fun a _ => hf a

theorem Yields.mono {x : Reading α} {post wider : α → Prop} (hx : Yields x post)
    (h : ∀ a, post a → wider a) : Yields x wider :=
  fun session a after run => h a (hx session a after run)

theorem yields_ofModel {file : Text} {result : Except ModelError α} {post : α → Prop}
    (h : ∀ a, result = .ok a → post a) : Yields (ofModel file result) post := by
  cases result with
  | ok a => exact yields_pure (h a rfl)
  | error e => exact yields_throw _ post

theorem yields_ofLogged {logged : Logged α} {post : α → Prop} (h : post logged.value) :
    Yields (ofLogged logged) post :=
  yields_bind fun _ => yields_pure h

/-! ## Answers that no session changes -/

/-- From every session whose roster belongs to a room, the reading gives this
answer, leaves the cursor where it is, and leaves a roster of the same room. -/
def Answers (x : Reading α) (answer : Except ParseError α) : Prop :=
  ∀ session : Session, session.roster.site ≠ [] → ∃ roster events,
    x.runFrom session = (answer, { session with roster, events }) ∧
      roster.site = session.roster.site

theorem answers_pure (a : α) : Answers (pure a) (.ok a) :=
  fun session _ => ⟨session.roster, session.events, rfl, rfl⟩

theorem answers_throw (e : ParseError) : Answers (throw e : Reading α) (.error e) :=
  fun session _ => ⟨session.roster, session.events, rfl, rfl⟩

theorem Answers.bind {x : Reading α} {f : α → Reading β} {a : α} {answer : Except ParseError β}
    (hx : Answers x (.ok a)) (hf : Answers (f a) answer) : Answers (x >>= f) answer := by
  intro session ready
  obtain ⟨roster, events, run, same⟩ := hx session ready
  have between : ({ session with roster, events } : Session).roster.site ≠ [] := same ▸ ready
  obtain ⟨roster', events', run', same'⟩ := hf _ between
  exact ⟨roster', events', (runFrom_bind_of_ok run f).trans run', same'.trans same⟩

theorem Answers.bind_error {x : Reading α} {e : ParseError} (hx : Answers x (.error e))
    (f : α → Reading β) : Answers (x >>= f) (.error e) := by
  intro session ready
  obtain ⟨roster, events, run, same⟩ := hx session ready
  exact ⟨roster, events, runFrom_bind_of_error run f, same⟩

theorem answers_record (events : List Event) : Answers (record events) (.ok ()) :=
  fun session _ => ⟨session.roster, session.events ++ events, rfl, rfl⟩

theorem answers_ofLogged (logged : Logged α) : Answers (ofLogged logged) (.ok logged.value) :=
  (answers_record logged.events).bind (answers_pure logged.value)

theorem answers_ofModel (file : Text) (result : Except ModelError α) :
    Answers (ofModel file result) (result.mapError (.model file)) := by
  cases result with
  | ok a => exact answers_pure a
  | error e => exact answers_throw _

/-- The reading has an answer that no session changes. -/
def Settled (x : Reading α) : Prop := ∃ answer, Answers x answer

theorem Settled.bind {x : Reading α} {f : α → Reading β} (hx : Settled x)
    (hf : ∀ a, Settled (f a)) : Settled (x >>= f) := by
  obtain ⟨answer, hx⟩ := hx
  cases answer with
  | ok a =>
    obtain ⟨answer, hf⟩ := hf a
    exact ⟨answer, hx.bind hf⟩
  | error e => exact ⟨.error e, hx.bind_error f⟩

/-- A session in front of an empty text, of some room. -/
def blankSession : Session := { cursor := { file := [], ahead := [] }, roster := { site := [' '] } }

/-- What the reading answers from a blank session. -/
def answer (x : Reading α) : Except ParseError α := (x.runFrom blankSession).1

theorem Answers.answer_eq {x : Reading α} {result : Except ParseError α} (hx : Answers x result) :
    x.answer = result := by
  obtain ⟨roster, events, run, -⟩ := hx blankSession (by simp [blankSession])
  rw [answer, run]

/-- A settled answer is the one from a blank session. -/
theorem Settled.answers {x : Reading α} (hx : Settled x) : Answers x x.answer := by
  obtain ⟨result, hx⟩ := hx
  exact hx.answer_eq ▸ hx

theorem Settled.answer_bind {x : Reading α} (hx : Settled x) {f : α → Reading β}
    (hf : ∀ a, Settled (f a)) : (x >>= f).answer = x.answer >>= fun a => (f a).answer := by
  cases h : x.answer with
  | error e => exact ((h ▸ hx.answers).bind_error f).answer_eq
  | ok a => exact ((h ▸ hx.answers).bind (hf a).answers).answer_eq

theorem settled_pure (a : α) : Settled (pure a) := ⟨_, answers_pure a⟩

theorem settled_throw (e : ParseError) : Settled (throw e : Reading α) := ⟨_, answers_throw e⟩

theorem settled_record (events : List Event) : Settled (record events) :=
  ⟨_, answers_record events⟩

theorem settled_ofModel (file : Text) (result : Except ModelError α) :
    Settled (ofModel file result) :=
  ⟨_, answers_ofModel file result⟩

/-! ## Enrolling

A roster of a room takes every name but the empty one. -/

theorem answers_enrol (file : Text) {name : Text} (hname : name ≠ []) :
    Answers (enrol file name) (.ok ()) := by
  intro session ready
  obtain ⟨isNew, roster, enrolled, same⟩ := Roster.enrol_of_ne_nil ready hname
  refine ⟨roster, session.events, ?_, same⟩
  rw [runFrom_enrol, enrolled]

theorem answers_enrol_nil (file : Text) :
    Answers (enrol file []) (.error (.model file (.emptyField .playerName))) := by
  intro session _
  refine ⟨session.roster, session.events, ?_, rfl⟩
  rw [runFrom_enrol, Roster.enrol_nil]

/-- Whoever is enrolled has a name, whatever the roster. -/
theorem yields_enrol (file name : Text) : Yields (enrol file name) fun _ => name ≠ [] := by
  rintro session a after run rfl
  rw [runFrom_enrol, Roster.enrol_nil] at run
  cases run

theorem settled_enrol (file name : Text) : Settled (enrol file name) := by
  by_cases hname : name = []
  · subst hname
    exact ⟨_, answers_enrol_nil file⟩
  · exact ⟨_, answers_enrol file hname⟩

theorem answers_markHero (file : Text) {name : Text} (hname : name ≠ []) :
    Answers (markHero file name) (.ok ()) := by
  intro session ready
  obtain ⟨roster, marked, same⟩ := Roster.markHero_of_ne_nil ready hname
  refine ⟨roster, session.events, ?_, same⟩
  rw [runFrom_markHero, marked]

theorem settled_markHero (file : Text) {name : Text} (hname : name ≠ []) :
    Settled (markHero file name) :=
  ⟨_, answers_markHero file hname⟩

/-! ## Properties of the parts -/

/-- A property that all parts have of which the reading of a line is put together, and
that the whole has if its parts have it. -/
structure Inherited (P : ∀ {α : Type}, Reading α → Prop) : Prop where
  pure : ∀ {α : Type} (a : α), P (Pure.pure a : Reading α)
  bind : ∀ {α β : Type} {x : Reading α} {f : α → Reading β}, P x → (∀ a, P (f a)) → P (x >>= f)
  record : ∀ events : List Event, P (record events)
  ofModel : ∀ {α : Type} (file : Text) (result : Except ModelError α), P (ofModel file result)
  invalidCard : ∀ {α : Type} (file token : Text), P (throw (.invalidCard file token) : Reading α)
  enrol : ∀ file name : Text, P (enrol file name)
  markHero : ∀ (file : Text) {name : Text}, name ≠ [] → P (markHero file name)

theorem Inherited.ofLogged {P : ∀ {α : Type}, Reading α → Prop} (inherited : Inherited @P)
    (logged : Logged α) : P (ofLogged logged) :=
  inherited.bind (inherited.record logged.events) fun _ => inherited.pure logged.value

theorem inherited_settled : Inherited @Settled where
  pure := settled_pure
  bind := Settled.bind
  record := settled_record
  ofModel := settled_ofModel
  invalidCard := fun file token => settled_throw (.invalidCard file token)
  enrol := settled_enrol
  markHero := settled_markHero

end Reading

end HandHistory
