import Mathlib.Logic.Basic

/-!
Owns sequential programs over an abstract statement signature: a program either
ends, raises, sends one statement and continues with its answer, or reads and
changes the client-side memory of its own session. Sending a statement may fail;
the failure is an answer like any other, so an enclosing handler can catch it.

Nothing here says what a statement does or who else is running; that is owned by
`Library.Engine`.
-/

namespace Fristenwaechter.Library

/-- A program of one session. `call` is the only point where the outside world
is consulted; `inspect` and `modify` touch the session's own memory. -/
inductive Program (Memory Statement : Type) (Answer : Statement → Type) (Error Result : Type) :
    Type
  | done (result : Result)
  | raise (error : Error)
  | call (statement : Statement)
      (next : Except Error (Answer statement) →
        Program Memory Statement Answer Error Result)
  | inspect (next : Memory → Program Memory Statement Answer Error Result)
  | modify (change : Memory → Memory) (next : Program Memory Statement Answer Error Result)

namespace Program

variable {Memory Statement : Type} {Answer : Statement → Type} {Error Result Final : Type}

/-- Sequential composition. -/
def bind : Program Memory Statement Answer Error Result →
    (Result → Program Memory Statement Answer Error Final) →
    Program Memory Statement Answer Error Final
  | done result, next => next result
  | raise error, _ => raise error
  | call statement rest, next => call statement (fun answer => (rest answer).bind next)
  | inspect rest, next => inspect (fun memory => (rest memory).bind next)
  | modify change rest, next => modify change (rest.bind next)

/-- `try program except handler`. -/
def handle : Program Memory Statement Answer Error Result →
    (Error → Program Memory Statement Answer Error Result) →
    Program Memory Statement Answer Error Result
  | done result, _ => done result
  | raise error, handler => handler error
  | call statement rest, handler => call statement (fun answer => (rest answer).handle handler)
  | inspect rest, handler => inspect (fun memory => (rest memory).handle handler)
  | modify change rest, handler => modify change (rest.handle handler)

instance : Monad (Program Memory Statement Answer Error) where
  pure := done
  bind := bind

instance : MonadExcept Error (Program Memory Statement Answer Error) where
  throw := raise
  tryCatch := handle

/-- Send one statement; its failure is raised. -/
def send (statement : Statement) : Program Memory Statement Answer Error (Answer statement) :=
  call statement fun
    | .ok answer => done answer
    | .error error => raise error

def memory : Program Memory Statement Answer Error Memory :=
  inspect done

def change (update : Memory → Memory) : Program Memory Statement Answer Error Unit :=
  modify update (done ())

/-- Run a program for each item in turn. -/
def forEach {Item : Type} (items : List Item)
    (body : Item → Program Memory Statement Answer Error Unit) :
    Program Memory Statement Answer Error Unit :=
  match items with
  | [] => done ()
  | item :: rest => (body item).bind fun _ => forEach rest body

theorem bind_eq_bind (program : Program Memory Statement Answer Error Result)
    (next : Result → Program Memory Statement Answer Error Final) :
    (program >>= next) = program.bind next :=
  rfl

theorem bind_assoc {Last : Type} (program : Program Memory Statement Answer Error Result)
    (next : Result → Program Memory Statement Answer Error Final)
    (last : Final → Program Memory Statement Answer Error Last) :
    (program >>= next) >>= last = program >>= fun value => next value >>= last := by
  simp only [bind_eq_bind]
  induction program with
  | done result => rfl
  | raise error => rfl
  | call statement rest inductionHypothesis => simp only [bind, inductionHypothesis]
  | inspect rest inductionHypothesis => simp only [bind, inductionHypothesis]
  | modify change rest inductionHypothesis => simp only [bind, inductionHypothesis]

end Program

end Fristenwaechter.Library
