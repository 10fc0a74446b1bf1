import NewsDay.Library.FirstFault
import NewsDay.Process.Holding
import NewsDay.Process.Telling
import NewsDay.Process.WatchCalls
import NewsDay.WatchKit.Screens

/-! # Browsing on the watch

The screens of the watch on top of the two processes. A screen awakes on the
main thread, asks the phone, and then registers its callback; the callback is
invoked by the main thread in its turn. Rows may be selected, and screens
opened, at any moment, and everything else goes on as before.
-/

namespace NewsDay

open Foundation

variable [Foundation]

/-- A screen that is awake. -/
structure OpenScreen where
  presentation : Presentation
  /-- The position of its request among the calls of the client's functions. -/
  request : Option Nat
  screen : Screen

namespace OpenScreen

variable (opened : OpenScreen)

/-- What an invocation tells the screen, if the callback is its own. -/
def response? : WatchCall → Option (Option AnyValue)
  | (asyncRequest, .screen, response, _) =>
      if opened.request.map Watch.requestOf = some asyncRequest then some response else none
  | _ => none

def received (call : WatchCall) : Except Trap OpenScreen :=
  match opened.response? call with
  | none => .ok opened
  | some response => do
      let screen ← opened.screen.received response
      return { opened with screen }

end OpenScreen

structure Browsing where
  connection : Connection
  screens : List OpenScreen
  /-- What was presented and is not awake yet. -/
  presented : List Presentation
  /-- The call with whose request `awake(withContext:)` has still to register. -/
  todo : Option Nat
  /-- How a screen has stopped the watch, if one has. -/
  halted : Option Trap

namespace Browsing

/-- No screen is open. -/
def start (watchPrefix phonePrefix : String) : Browsing where
  connection := .start watchPrefix phonePrefix
  screens := []
  presented := []
  todo := none
  halted := none

/-- What can happen while somebody is browsing. -/
inductive Action
  /-- A step of the two processes, as far as it is not one of a screen. -/
  | connection (action : Connection.Action)
  | sourcesTapped
  /-- What was presented is made a screen, which awakes. -/
  | awake (index : Nat)
  /-- The end of `awake(withContext:)`. -/
  | register
  /-- A row of the table of a screen is selected. -/
  | select (screen rowIndex : Nat)

variable (browsing : Browsing)

/-- The main thread of the watch does nothing else while a screen awakes, only
a screen registers with its own request, and nothing happens in a process that
was stopped. -/
def permits : Connection.Action → Bool
  | .watch .main => browsing.halted.isNone && browsing.todo.isNone
  | .watch (.listen index) =>
      browsing.halted.isNone && browsing.screens.all fun opened => opened.request != some index
  | .watch _ => browsing.halted.isNone
  | .respond _ => browsing.halted.isNone
  | .phone _ => true
  | .deliver _ => true

/-- The screens can be used. -/
def idle : Bool :=
  browsing.halted.isNone && browsing.connection.watch.halted.isNone && browsing.todo.isNone

/-- A step of the two processes, with the code of the screens that it runs. -/
def connect (action : Connection.Action) : Option Browsing :=
  (browsing.connection.step action).map fun connection =>
    match browsing.connection.invoking action with
    | none => { browsing with connection }
    | some call =>
        match browsing.screens.mapM (·.received call) with
        | .error trap => { browsing with connection, halted := some trap }
        | .ok screens => { browsing with connection, screens }

def present (presentation : Presentation) : Browsing :=
  { browsing with presented := browsing.presented ++ [presentation] }

def awake (imageNamed : String → Option UIImage) (presentation : Presentation) :
    Option Browsing :=
  let (screen, request) := Screen.awake imageNamed presentation
  match request with
  | none =>
      some { browsing with
        screens := browsing.screens ++ [{ presentation, request := none, screen }] }
  | some request =>
      let index := browsing.connection.watch.asked.length
      (browsing.connection.step (.watch (.get request))).map fun connection => { browsing with
        connection
        screens := browsing.screens ++ [{ presentation, request := some index, screen }]
        todo := some index }

def register : Option Browsing :=
  browsing.todo.bind fun index =>
    (browsing.connection.step (.watch (.listen index))).map fun connection =>
      { browsing with connection, todo := none }

def select (opened : OpenScreen) (rowIndex : Nat) : Option Browsing :=
  if rowIndex < opened.screen.rowCount then
    match opened.screen.didSelectRow rowIndex with
    | .error trap => some { browsing with halted := some trap }
    | .ok none => some browsing
    | .ok (some presentation) => some (browsing.present presentation)
  else none

def step (imageNamed : String → Option UIImage) : Action → Option Browsing
  | .connection action => if browsing.permits action then browsing.connect action else none
  | .sourcesTapped => if browsing.idle then some (browsing.present .sourcesTapped) else none
  | .awake index =>
      if browsing.idle then
        browsing.presented[index]?.bind fun presentation =>
          awake { browsing with presented := browsing.presented.eraseIdx index } imageNamed
            presentation
      else none
  | .register => if browsing.halted.isNone then browsing.register else none
  | .select screen rowIndex =>
      if browsing.idle then
        browsing.screens[screen]?.bind fun opened => browsing.select opened rowIndex
      else none

/-! ## What one step can do -/

/-- The steps of somebody browsing. -/
inductive Step (imageNamed : String → Option UIImage) (browsing : Browsing) : Browsing → Prop
  | quiet (action : Connection.Action) (connection : Connection)
      (hpermits : browsing.permits action = true)
      (hnext : browsing.connection.step action = some connection)
      (hinvoking : browsing.connection.invoking action = none) :
      Step imageNamed browsing { browsing with connection }
  | receives (action : Connection.Action) (connection : Connection) (call : WatchCall)
      (screens : List OpenScreen) (hrunning : browsing.halted = none)
      (hnext : browsing.connection.step action = some connection)
      (hinvoking : browsing.connection.invoking action = some call)
      (hreceived : browsing.screens.mapM (·.received call) = .ok screens) :
      Step imageNamed browsing { browsing with connection, screens }
  | stops (action : Connection.Action) (connection : Connection) (call : WatchCall) (trap : Trap)
      (hrunning : browsing.halted = none)
      (hnext : browsing.connection.step action = some connection)
      (hinvoking : browsing.connection.invoking action = some call)
      (hreceived : browsing.screens.mapM (·.received call) = .error trap) :
      Step imageNamed browsing { browsing with connection, halted := some trap }
  | sourcesTapped (hidle : browsing.idle = true) :
      Step imageNamed browsing (browsing.present .sourcesTapped)
  | shows (presentation : Presentation) (presented : List Presentation) (screen : Screen)
      (hidle : browsing.idle = true) (hpresentation : presentation ∈ browsing.presented)
      (hpresented : presented ⊆ browsing.presented)
      (hawake : Screen.awake imageNamed presentation = (screen, none)) :
      Step imageNamed browsing { browsing with
        presented
        screens := browsing.screens ++ [{ presentation, request := none, screen }] }
  | asks (presentation : Presentation) (presented : List Presentation) (screen : Screen)
      (request : WatchRequest) (connection : Connection) (hidle : browsing.idle = true)
      (hpresentation : presentation ∈ browsing.presented)
      (hpresented : presented ⊆ browsing.presented)
      (hawake : Screen.awake imageNamed presentation = (screen, some request))
      (hnext : browsing.connection.step (.watch (.get request)) = some connection) :
      Step imageNamed browsing { browsing with
        connection
        presented
        screens := browsing.screens ++
          [{ presentation, request := some browsing.connection.watch.asked.length, screen }]
        todo := some browsing.connection.watch.asked.length }
  | register (index : Nat) (connection : Connection) (hrunning : browsing.halted = none)
      (htodo : browsing.todo = some index)
      (hnext : browsing.connection.step (.watch (.listen index)) = some connection) :
      Step imageNamed browsing { browsing with connection, todo := none }
  | selects (opened : OpenScreen) (rowIndex : Nat) (presentation : Option Presentation)
      (hidle : browsing.idle = true) (hopened : opened ∈ browsing.screens)
      (hrow : rowIndex < opened.screen.rowCount)
      (hselected : opened.screen.didSelectRow rowIndex = .ok presentation) :
      Step imageNamed browsing
        { browsing with presented := browsing.presented ++ presentation.toList }
  | fails (opened : OpenScreen) (rowIndex : Nat) (trap : Trap) (hidle : browsing.idle = true)
      (hopened : opened ∈ browsing.screens) (hrow : rowIndex < opened.screen.rowCount)
      (hselected : opened.screen.didSelectRow rowIndex = .error trap) :
      Step imageNamed browsing { browsing with halted := some trap }

variable {browsing} {next : Browsing} {imageNamed : String → Option UIImage}

/-- Only the main thread invokes callbacks, while the watch runs. -/
theorem running_of_invoking {action : Connection.Action} {call : WatchCall}
    (hpermits : browsing.permits action = true)
    (hinvoking : browsing.connection.invoking action = some call) : browsing.halted = none := by
  cases action with
  | watch action =>
      cases action with
      | main => exact Option.isNone_iff_eq_none.mp (Bool.and_eq_true_iff.mp hpermits).1
      | _ => exact absurd hinvoking.symm (Option.some_ne_none call)
  | _ => exact absurd hinvoking.symm (Option.some_ne_none call)

theorem connect_step {action : Connection.Action} (hpermits : browsing.permits action = true)
    (hnext : browsing.connect action = some next) : Step imageNamed browsing next := by
  obtain ⟨connection, hconnection, rfl⟩ := Option.map_eq_some_iff.mp hnext
  split
  next hinvoking => exact .quiet action connection hpermits hconnection hinvoking
  next call hinvoking =>
    have hrunning := running_of_invoking hpermits hinvoking
    split
    next trap hreceived =>
      exact .stops action connection call trap hrunning hconnection hinvoking hreceived
    next screens hreceived =>
      exact .receives action connection call screens hrunning hconnection hinvoking hreceived

theorem awake_step {presentation : Presentation} {presented : List Presentation}
    (hidle : browsing.idle = true) (hpresentation : presentation ∈ browsing.presented)
    (hpresented : presented ⊆ browsing.presented)
    (hnext : awake { browsing with presented } imageNamed presentation = some next) :
    Step imageNamed browsing next := by
  unfold awake at hnext
  rcases hawake : Screen.awake imageNamed presentation with ⟨screen, request⟩
  rw [hawake] at hnext
  cases request with
  | none =>
      obtain rfl := Option.some.inj hnext
      exact .shows presentation presented screen hidle hpresentation hpresented hawake
  | some request =>
      obtain ⟨connection, hconnection, rfl⟩ := Option.map_eq_some_iff.mp hnext
      exact .asks presentation presented screen request connection hidle hpresentation hpresented
        hawake hconnection

theorem select_step {opened : OpenScreen} {rowIndex : Nat} (hidle : browsing.idle = true)
    (hopened : opened ∈ browsing.screens) (hnext : browsing.select opened rowIndex = some next) :
    Step imageNamed browsing next := by
  obtain ⟨hrow, hnext⟩ := Option.ite_none_right_eq_some.mp hnext
  cases hselected : opened.screen.didSelectRow rowIndex with
  | error trap =>
      rw [hselected] at hnext
      obtain rfl := Option.some.inj hnext
      exact .fails opened rowIndex trap hidle hopened hrow hselected
  | ok presentation =>
      rw [hselected] at hnext
      cases presentation with
      | none =>
          obtain rfl := Option.some.inj hnext
          have hstep : Step imageNamed browsing _ :=
            .selects opened rowIndex none hidle hopened hrow hselected
          rwa [Option.toList_none, List.append_nil] at hstep
      | some presentation =>
          obtain rfl := Option.some.inj hnext
          exact .selects opened rowIndex (some presentation) hidle hopened hrow hselected

theorem step_step {action : Action} (hnext : browsing.step imageNamed action = some next) :
    Step imageNamed browsing next := by
  cases action with
  | connection action =>
      obtain ⟨hpermits, hnext⟩ := Option.ite_none_right_eq_some.mp hnext
      exact connect_step hpermits hnext
  | sourcesTapped =>
      obtain ⟨hidle, hnext⟩ := Option.ite_none_right_eq_some.mp hnext
      obtain rfl := Option.some.inj hnext
      exact .sourcesTapped hidle
  | awake index =>
      obtain ⟨hidle, hnext⟩ := Option.ite_none_right_eq_some.mp hnext
      obtain ⟨presentation, hpresentation, hnext⟩ := Option.bind_eq_some_iff.mp hnext
      exact awake_step hidle (List.mem_of_getElem? hpresentation)
        (List.eraseIdx_subset) hnext
  | register =>
      obtain ⟨hrunning, hnext⟩ := Option.ite_none_right_eq_some.mp hnext
      obtain ⟨index, htodo, hnext⟩ := Option.bind_eq_some_iff.mp hnext
      obtain ⟨connection, hconnection, rfl⟩ := Option.map_eq_some_iff.mp hnext
      exact .register index connection (Option.isNone_iff_eq_none.mp hrunning) htodo hconnection
  | select screen rowIndex =>
      obtain ⟨hidle, hnext⟩ := Option.ite_none_right_eq_some.mp hnext
      obtain ⟨opened, hopened, hnext⟩ := Option.bind_eq_some_iff.mp hnext
      exact select_step hidle (List.mem_of_getElem? hopened) hnext

end Browsing

end NewsDay
