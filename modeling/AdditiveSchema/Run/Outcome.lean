import AdditiveSchema.Run.Error

/-!
# Outcomes

What a run does that can be seen from outside, as a value: the events in their order, and then
either a result or the error that ended the run. A step after an error does nothing.

Main statements: `mk_ok_bind` and `mk_error_bind` say what comes of two steps, one after the other.
-/

namespace AdditiveSchema

/-- The weight of a log line. -/
inductive LogLevel where
  | info
  | warn
  deriving DecidableEq, Repr

/-- The mark in front of a log line. -/
def LogLevel.mark : LogLevel → String
  | .info => " INFO "
  | .warn => " WARN "

/-- Something that a run does. -/
inductive Event where
  /-- A log line with named values. -/
  | log (level : LogLevel) (message : String) (fields : List (String × String))
  /-- A text on standard output. -/
  | print (text : String)
  /-- A statement is given to the database. -/
  | send (sql : String)
  deriving DecidableEq, Repr

namespace Event

/-- What the event writes to standard output, without the end of the line. -/
def text? : Event → Option String
  | .log level message fields =>
    some (fields.foldl (fun line (name, value) => line ++ " " ++ name ++ "=" ++ value)
      (level.mark ++ message))
  | .print text => some text
  | .send _ => none

/-- The text that the run prints. -/
def printed? : Event → Option String
  | .print text => some text
  | _ => none

/-- The statement that the database is given. -/
def sent? : Event → Option String
  | .send sql => some sql
  | _ => none

end Event

/-- The events of a run and how it ends. -/
structure Outcome (α : Type) where
  events : List Event
  result : Except RunError α
  deriving Repr

namespace Outcome

instance : Monad Outcome where
  pure a := ⟨[], .ok a⟩
  bind x f :=
    match x.result with
    | .ok a => ⟨x.events ++ (f a).events, (f a).result⟩
    | .error e => ⟨x.events, .error e⟩

/-- A run that ends with an error. -/
def fail {α : Type} (e : RunError) : Outcome α :=
  ⟨[], .error e⟩

/-- A result that is there, or an error. -/
def ofExcept {ε α : Type} (wrap : ε → RunError) (x : Except ε α) : Outcome α :=
  ⟨[], x.mapError wrap⟩

/-- One event. -/
def emit (event : Event) : Outcome Unit :=
  ⟨[event], .ok ()⟩

/-- Writes a log line. -/
def info (message : String) (fields : List (String × String)) : Outcome Unit :=
  emit (.log .info message fields)

/-- Writes a log line with a warning. -/
def warn (message : String) (fields : List (String × String)) : Outcome Unit :=
  emit (.log .warn message fields)

/-- Prints a text. -/
def print (text : String) : Outcome Unit :=
  emit (.print text)

/-- The statements that the database is given. -/
def sent {α : Type} (x : Outcome α) : List String :=
  x.events.filterMap Event.sent?

/-- The texts that are printed. -/
def printed {α : Type} (x : Outcome α) : List String :=
  x.events.filterMap Event.printed?

/-- Behind a result the events of the next step follow. -/
theorem mk_ok_bind {α β : Type} (events : List Event) (a : α) (f : α → Outcome β) :
    (⟨events, .ok a⟩ : Outcome α) >>= f = ⟨events ++ (f a).events, (f a).result⟩ := rfl

/-- Behind an error nothing follows. -/
theorem mk_error_bind {α β : Type} (events : List Event) (e : RunError) (f : α → Outcome β) :
    (⟨events, .error e⟩ : Outcome α) >>= f = ⟨events, .error e⟩ := rfl

instance : LawfulMonad Outcome :=
  LawfulMonad.mk' Outcome
    (fun x => by
      obtain ⟨events, result⟩ := x
      cases result <;> simp [Functor.map])
    (fun a f => by simp [bind, pure])
    (fun x f g => by
      obtain ⟨events, result⟩ := x
      cases result with
      | error e => simp [bind]
      | ok a => cases h : (f a).result <;> simp [bind, h, List.append_assoc])

end Outcome

end AdditiveSchema
