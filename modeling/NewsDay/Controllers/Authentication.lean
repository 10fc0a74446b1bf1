import NewsDay.Library.Execution
import NewsDay.Library.Pending
import NewsDay.Models.Values
import NewsDay.Utilities.AuthUtils

/-! # Signing in

The first two screens and the authentication service. A screen hands the values
of its form to the service when they pass the checks, and performs the segue to
the main screens when the service has found a user, or when it is skipped. A
forgotten password is reset once the user has confirmed the address. The service
completes its calls in any order, at any moment, and each at most once; alerts
are answered likewise.

What is recorded are calls: of `performSegue`, `modalDialog` and `modalConfirm`.
Whether the platform presents anything then, or refuses because the screen
already presents something else, is not modelled.
-/

namespace NewsDay

open AuthUtils

/-- The screens that inherit from `AuthUtils`. -/
inductive AuthScreen
  | signInViewController
  | signUpViewController
deriving DecidableEq

/-- A call of `signIn(withEmail:password:)` or of `createUser(withEmail:password:)`,
by the screen that makes it. -/
structure AuthCall where
  screen : AuthScreen
  values : FormValues

/-- What the service passes to the completion handler of such a call, as far as
it is read. -/
structure AuthCompletion where
  hasUser : Bool
  /-- The `localizedDescription` of the error. -/
  error : Option String

/-- A call of `UIUtils.modalConfirm`, with the address that its handlers have
captured. -/
structure ConfirmCall where
  dialog : Dialog
  email : String

structure Authentication where
  /-- The calls whose completion handlers have not run. -/
  pending : List AuthCall := []
  /-- The calls of `modalConfirm` whose completion handlers have not run. -/
  confirms : List ConfirmCall := []
  /-- The addresses in calls of `sendPasswordReset(withEmail:)` whose completion
  handlers have not run. -/
  resetting : List String := []
  /-- The blocks that `resetPassword` has dispatched: what each calls its
  completion handler with. -/
  queue : List Bool := []
  /-- How the process was stopped, if it was. -/
  halted : Option Trap := none
  /-- The calls of `performSegue` for the main screens, by the screens that have
  made them. -/
  performSegueCalls : List AuthScreen := []
  /-- The calls of `UIUtils.modalDialog`. -/
  modalDialogCalls : List Dialog := []
  completed : List (AuthCall × AuthCompletion) := []
  /-- The calls of `modalConfirm` that were answered, with whether it was by OK. -/
  answered : List (ConfirmCall × Bool) := []
  /-- The addresses whose reset the service has completed, with whether it was
  without an error. -/
  reset : List (String × Bool) := []

namespace Authentication

variable [UnicodeTables] (authentication : Authentication)

/-- `UIUtils.modalDialog` is called. -/
def modalDialog (dialog : Dialog) : Authentication :=
  { authentication with modalDialogCalls := authentication.modalDialogCalls ++ [dialog] }

/-- `continueToMainUI()`. -/
def continueToMainUI (screen : AuthScreen) : Authentication :=
  { authentication with performSegueCalls := authentication.performSegueCalls ++ [screen] }

/-- `skip(_:)`. -/
def skip (screen : AuthScreen) : Authentication := authentication.continueToMainUI screen

/-- The completion handler of the pending call at the position. -/
def complete (index : Nat) (call : AuthCall) (completion : AuthCompletion) : Authentication :=
  let authentication := { authentication with
    pending := authentication.pending.eraseIdx index
    completed := authentication.completed ++ [(call, completion)] }
  match completion.hasUser, completion.error with
  | true, none => authentication.continueToMainUI call.screen
  | _, some localizedDescription =>
      authentication.modalDialog { title := "Error", message := localizedDescription }
  -- there is no error to unwrap
  | false, none => { authentication with halted := some .forcedUnwrap }

/-- `signInWith(values:)` and `signUpWith(values:)`. -/
def signWith (call : AuthCall) : Authentication :=
  match validate call.values with
  | some dialog => authentication.modalDialog dialog
  | none => { authentication with pending := authentication.pending ++ [call] }

/-- `formValues()`, from the texts of the two fields. -/
def formValues (email password : Option String) : FormValues :=
  { email := email.getD "", password := password.getD "" }

/-- `signIn(_:)` and `signUp(_:)`. -/
def sign (screen : AuthScreen) (email password : Option String) : Authentication :=
  authentication.signWith { screen, values := formValues email password }

/-- `forgotPassword(_:)`, with the text of the field. -/
def forgotPassword (text : Option String) : Authentication :=
  match text, SignInViewController.forgotPassword text with
  | some email, .modalConfirm dialog =>
      { authentication with confirms := authentication.confirms ++ [{ dialog, email }] }
  | _, .modalDialog dialog => authentication.modalDialog dialog
  | _, _ => authentication

/-- The completion handler of `modalConfirm`, for the call at the position. -/
def answer (index : Nat) (alert : ConfirmCall) (yes : Bool) : Authentication :=
  let authentication := { authentication with
    confirms := authentication.confirms.eraseIdx index
    answered := authentication.answered ++ [(alert, yes)] }
  if !yes then authentication
  else { authentication with resetting := authentication.resetting ++ [alert.email] }

/-- The completion handler that `resetPassword` passes to the service, for the
address at the position. -/
def completeReset (index : Nat) (email : String) (error : Option String) : Authentication :=
  { authentication with
    resetting := authentication.resetting.eraseIdx index
    queue := authentication.queue ++ [error.isNone]
    reset := authentication.reset ++ [(email, error.isNone)] }

/-- The message of the completion handler of `forgotPassword`. -/
def resetMessage (success : Bool) : String :=
  if success then
    "Password recovery mail was sent. Check your" ++ " email and follow the instructions there" ++
      " to recover your password"
  else
    "There was a problem sending the password" ++ " recovery email. Check the email address" ++
      " and try again"

/-- The dialog of the completion handler of `forgotPassword`. -/
def resetDialog (success : Bool) : Dialog :=
  { title := "Password Recovery", message := resetMessage success }

inductive Action
  | sign (screen : AuthScreen) (email password : Option String)
  | skip (screen : AuthScreen)
  | forgotPassword (text : Option String)
  /-- The service completes a pending call. -/
  | complete (index : Nat) (completion : AuthCompletion)
  /-- An alert of `modalConfirm` is answered, by OK or by Cancel. -/
  | answer (index : Nat) (yes : Bool)
  | completeReset (index : Nat) (error : Option String)
  /-- The main queue runs the first of its blocks. -/
  | main

def perform : Action → Option Authentication
  | .sign screen email password => some (authentication.sign screen email password)
  | .skip screen => some (authentication.skip screen)
  | .forgotPassword text => some (authentication.forgotPassword text)
  | .complete index completion =>
      authentication.pending[index]?.map (authentication.complete index · completion)
  | .answer index yes => authentication.confirms[index]?.map (authentication.answer index · yes)
  | .completeReset index error =>
      authentication.resetting[index]?.map (authentication.completeReset index · error)
  | .main =>
      match authentication.queue with
      | [] => none
      | success :: queue => some ({ authentication with queue }.modalDialog (resetDialog success))

/-- Nothing happens any more in a process that was stopped. -/
def step (action : Action) : Option Authentication :=
  match authentication.halted with
  | some _ => none
  | none => authentication.perform action

/-! ## What comes of what happens -/

/-- The call that the service is given. -/
def Action.submitted? : Action → Option AuthCall
  | .sign screen email password =>
      match validate (formValues email password) with
      | none => some { screen, values := formValues email password }
      | some _ => none
  | _ => none

def Action.skipped? : Action → Option AuthScreen
  | .skip screen => some screen
  | _ => none

/-- The call that asks for a confirmation. -/
def Action.asked? : Action → Option ConfirmCall
  | .forgotPassword (some email) =>
      match SignInViewController.forgotPassword (some email) with
      | .modalConfirm dialog => some { dialog, email }
      | _ => none
  | _ => none

/-- The complaint about what was entered. -/
def Action.refused? : Action → Option Dialog
  | .sign _ email password => validate (formValues email password)
  | .forgotPassword text =>
      match SignInViewController.forgotPassword text with
      | .modalDialog dialog => some dialog
      | _ => none
  | _ => none

/-- The screen that performs the segue when the call is completed. -/
def entered? (completed : AuthCall × AuthCompletion) : Option AuthScreen :=
  if completed.2.hasUser && completed.2.error.isNone then some completed.1.screen else none

/-- The dialog about a completed call. -/
def failed? (completed : AuthCall × AuthCompletion) : Option Dialog :=
  completed.2.error.map fun localizedDescription =>
    { title := "Error", message := localizedDescription }

/-- The address that an answer confirms. -/
def confirmed? (answered : ConfirmCall × Bool) : Option String :=
  if answered.2 then some answered.1.email else none

/-- The calls of `modalDialog` about the outcomes of password resets. -/
def outcomes : List Dialog :=
  authentication.modalDialogCalls.filter (·.title == "Password Recovery")

/-- The calls of `modalDialog` about anything else. -/
def complaints : List Dialog :=
  authentication.modalDialogCalls.filter (·.title != "Password Recovery")

/-- What was asked of the screens, by kind. -/
structure Requests where
  submitted : List AuthCall
  skipped : List AuthScreen
  asked : List ConfirmCall
  refused : List Dialog

def requests (schedule : List Action) : Requests where
  submitted := schedule.filterMap Action.submitted?
  skipped := schedule.filterMap Action.skipped?
  asked := schedule.filterMap Action.asked?
  refused := schedule.filterMap Action.refused?

/-- What has been done comes from what was asked for and from what has ended,
each thing from one. -/
structure Accounted (requests : Requests) : Prop where
  calls : Pending.Accounts requests.submitted (authentication.completed.map Prod.fst)
    authentication.pending
  entered : authentication.performSegueCalls.Perm
    (requests.skipped ++ authentication.completed.filterMap entered?)
  stopped : authentication.halted ≠ none ↔ ∃ call,
    (call, { hasUser := false, error := none }) ∈ authentication.completed
  alerts : Pending.Accounts requests.asked (authentication.answered.map Prod.fst)
    authentication.confirms
  resets : Pending.Accounts (authentication.answered.filterMap confirmed?)
    (authentication.reset.map Prod.fst) authentication.resetting
  /-- Outcomes go to `modalDialog` in order. -/
  told : authentication.outcomes ++ authentication.queue.map resetDialog =
    authentication.reset.map fun reset => resetDialog reset.2
  complained : authentication.complaints.Perm
    (requests.refused ++ authentication.completed.filterMap failed?)

theorem accounted_start : ({} : Authentication).Accounted (requests []) where
  calls := Pending.accounts_nil
  entered := List.Perm.refl []
  stopped := by simp
  alerts := Pending.accounts_nil
  resets := Pending.accounts_nil
  told := rfl
  complained := List.Perm.refl []

/-! ## What each function adds -/

section Functions

omit [UnicodeTables]

variable {authentication} {requests : Requests}

@[simp] theorem resetDialog_title (success : Bool) :
    (resetDialog success).title = "Password Recovery" := rfl

@[simp] theorem modalDialog_outcomes (dialog : Dialog) :
    (authentication.modalDialog dialog).outcomes = authentication.outcomes ++
      if dialog.title = "Password Recovery" then [dialog] else [] := by
  by_cases htitle : dialog.title = "Password Recovery"
  · simp [outcomes, modalDialog, htitle]
  · simp [outcomes, modalDialog, htitle]

@[simp] theorem modalDialog_complaints (dialog : Dialog) :
    (authentication.modalDialog dialog).complaints = authentication.complaints ++
      if dialog.title = "Password Recovery" then [] else [dialog] := by
  by_cases htitle : dialog.title = "Password Recovery"
  · simp [complaints, modalDialog, htitle]
  · simp [complaints, modalDialog, htitle]

/-- What was entered is refused. -/
theorem Accounted.refuse (haccounted : authentication.Accounted requests) (dialog : Dialog)
    (htitle : dialog.title ≠ "Password Recovery") :
    (authentication.modalDialog dialog).Accounted
      { requests with refused := requests.refused ++ [dialog] } :=
  { haccounted with
    told := by
      rw [modalDialog_outcomes, if_neg htitle, List.append_nil]
      exact haccounted.told
    complained := by
      have hinserted := Pending.perm_insert_last haccounted.complained dialog
      rw [modalDialog_complaints, if_neg htitle]
      exact hinserted }

theorem Accounted.skip (haccounted : authentication.Accounted requests) (screen : AuthScreen) :
    (authentication.skip screen).Accounted
      { requests with skipped := requests.skipped ++ [screen] } :=
  { haccounted with
    entered := Pending.perm_insert_last haccounted.entered screen }

theorem Accounted.submit (haccounted : authentication.Accounted requests) (call : AuthCall) :
    ({ authentication with pending := authentication.pending ++ [call] } :
      Authentication).Accounted { requests with submitted := requests.submitted ++ [call] } :=
  { haccounted with calls := haccounted.calls.start call }

theorem Accounted.ask (haccounted : authentication.Accounted requests) (alert : ConfirmCall) :
    ({ authentication with confirms := authentication.confirms ++ [alert] } :
      Authentication).Accounted { requests with asked := requests.asked ++ [alert] } :=
  { haccounted with alerts := haccounted.alerts.start alert }

/-- The process stops at a completion with neither a user nor an error. -/
theorem Accounted.stopped_concat (haccounted : authentication.Accounted requests)
    (hrunning : authentication.halted = none) (entry : AuthCall × AuthCompletion) :
    (∃ call, (call, { hasUser := false, error := none }) ∈ authentication.completed ++ [entry]) ↔
      entry.2 = { hasUser := false, error := none } := by
  constructor
  · rintro ⟨call, hmem⟩
    rcases List.mem_append.mp hmem with hold | hnew
    · exact absurd hrunning (haccounted.stopped.mpr ⟨call, hold⟩)
    · exact congrArg Prod.snd (List.mem_singleton.mp hnew).symm
  · intro hentry
    exact ⟨entry.1, List.mem_append_right _ (List.mem_singleton.mpr (hentry ▸ rfl))⟩

theorem Accounted.complete (haccounted : authentication.Accounted requests)
    (hrunning : authentication.halted = none) {index : Nat} {call : AuthCall}
    (hcall : authentication.pending[index]? = some call) (completion : AuthCompletion) :
    (authentication.complete index call completion).Accounted requests := by
  have hcalls : Pending.Accounts requests.submitted
      ((authentication.completed ++ [(call, completion)]).map Prod.fst)
      (authentication.pending.eraseIdx index) := by
    rw [List.map_append]
    exact haccounted.calls.finish hcall
  have hentered := Pending.perm_filterMap_concat haccounted.entered (call, completion)
  have hcomplained := Pending.perm_filterMap_concat haccounted.complained (call, completion)
  have hstopped := haccounted.stopped_concat hrunning (call, completion)
  obtain ⟨hasUser, error⟩ := completion
  cases error with
  | some description =>
      have hnobody : entered? (call, ⟨hasUser, description⟩) = none := by simp [entered?]
      rw [hnobody, Option.toList_none, List.append_nil] at hentered
      have htitle : "Error" ≠ "Password Recovery" := by decide
      have hshown : (({ authentication with
          pending := authentication.pending.eraseIdx index
          completed := authentication.completed ++ [(call, ⟨hasUser, description⟩)] } :
            Authentication).modalDialog ⟨"Error", description⟩).Accounted requests :=
        { haccounted with
          calls := hcalls
          entered := hentered
          stopped := (iff_of_false (not_not.mpr hrunning) (by simp)).trans hstopped.symm
          told := by
            rw [modalDialog_outcomes, if_neg htitle, List.append_nil]
            exact haccounted.told
          complained := by
            rw [modalDialog_complaints, if_neg htitle]
            exact hcomplained }
      cases hasUser with
      | true => exact hshown
      | false => exact hshown
  | none =>
      have hnothing : failed? (call, ⟨hasUser, none⟩) = none := rfl
      rw [hnothing, Option.toList_none, List.append_nil] at hcomplained
      cases hasUser with
      | true =>
          exact { haccounted with
            calls := hcalls
            entered := hentered
            stopped := (iff_of_false (not_not.mpr hrunning) (by simp)).trans hstopped.symm
            complained := hcomplained }
      | false =>
          have hnobody : entered? (call, ⟨false, none⟩) = none := rfl
          rw [hnobody, Option.toList_none, List.append_nil] at hentered
          exact { haccounted with
            calls := hcalls
            entered := hentered
            stopped := (iff_of_true (Option.some_ne_none _) rfl).trans hstopped.symm
            complained := hcomplained }

theorem Accounted.answer (haccounted : authentication.Accounted requests) {index : Nat}
    {alert : ConfirmCall} (halert : authentication.confirms[index]? = some alert) (yes : Bool) :
    (authentication.answer index alert yes).Accounted requests := by
  have halerts := haccounted.alerts.finish halert
  unfold Authentication.answer
  cases yes with
  | false =>
      exact { haccounted with
        alerts := by simpa using halerts
        resets := by simpa [confirmed?] using haccounted.resets }
  | true =>
      exact { haccounted with
        alerts := by simpa using halerts
        resets := by simpa [confirmed?] using haccounted.resets.start alert.email }

theorem Accounted.completeReset (haccounted : authentication.Accounted requests) {index : Nat}
    {email : String} (hemail : authentication.resetting[index]? = some email)
    (error : Option String) :
    (authentication.completeReset index email error).Accounted requests :=
  { haccounted with
    resets := by
      have hresets := haccounted.resets.finish hemail
      simpa [Authentication.completeReset] using hresets
    told := by
      have htold := haccounted.told
      simp only [outcomes, Authentication.completeReset, List.map_append] at htold ⊢
      rw [← List.append_assoc, htold]
      rfl }

theorem Accounted.main (haccounted : authentication.Accounted requests) {success : Bool}
    {queue : List Bool} (hqueue : authentication.queue = success :: queue) :
    ({ authentication with queue }.modalDialog (resetDialog success)).Accounted requests :=
  { haccounted with
    told := by
      have htold := haccounted.told
      rw [hqueue, List.map_cons] at htold
      rw [modalDialog_outcomes, if_pos (resetDialog_title success), List.append_assoc,
        List.singleton_append]
      exact htold
    complained := by
      rw [modalDialog_complaints, if_pos (resetDialog_title success), List.append_nil]
      exact haccounted.complained }

end Functions

/-! ## What a run does -/

theorem validate_title {values : FormValues} {dialog : Dialog}
    (hdialog : validate values = some dialog) : dialog.title = "Error" := by
  obtain ⟨message, -, rfl⟩ := Option.map_eq_some_iff.mp hdialog
  rfl

theorem forgotPassword_title {text : Option String} {dialog : Dialog}
    (houtcome : SignInViewController.forgotPassword text = .modalDialog dialog) :
    dialog.title = "Invalid email" := by
  unfold SignInViewController.forgotPassword at houtcome
  split at houtcome
  next => cases houtcome
  next =>
    split at houtcome
    next =>
      obtain rfl := Outcome.modalDialog.inj houtcome
      rfl
    next => cases houtcome

variable {authentication} {schedule : List Action}

theorem requests_concat (schedule : List Action) (action : Action) :
    requests (schedule ++ [action]) = {
      submitted := (requests schedule).submitted ++ action.submitted?.toList
      skipped := (requests schedule).skipped ++ action.skipped?.toList
      asked := (requests schedule).asked ++ action.asked?.toList
      refused := (requests schedule).refused ++ action.refused?.toList } := by
  have hconcat {Value : Type} (kind : Action → Option Value) :
      (schedule ++ [action]).filterMap kind = schedule.filterMap kind ++ (kind action).toList := by
    cases hkind : kind action <;> simp [hkind]
  simp only [requests, hconcat]

/-- An action that asks nothing of the screens. -/
theorem requests_quiet {action : Action} (hsubmitted : action.submitted? = none)
    (hskipped : action.skipped? = none) (hasked : action.asked? = none)
    (hrefused : action.refused? = none) : requests (schedule ++ [action]) = requests schedule := by
  rw [requests_concat, hsubmitted, hskipped, hasked, hrefused]
  simp only [Option.toList_none, List.append_nil]

theorem Accounted.sign (haccounted : authentication.Accounted (requests schedule))
    (screen : AuthScreen) (email password : Option String) :
    (authentication.sign screen email password).Accounted
      (requests (schedule ++ [.sign screen email password])) := by
  rw [requests_concat]
  unfold Authentication.sign signWith
  simp only [Action.submitted?, Action.skipped?, Action.asked?, Action.refused?]
  cases hvalidate : validate (formValues email password) with
  | some dialog =>
      have htitle : dialog.title ≠ "Password Recovery" := by
        rw [validate_title hvalidate]
        decide
      simpa using haccounted.refuse dialog htitle
  | none => simpa using haccounted.submit { screen, values := formValues email password }

theorem Accounted.forgotPassword (haccounted : authentication.Accounted (requests schedule))
    (text : Option String) :
    (authentication.forgotPassword text).Accounted
      (requests (schedule ++ [.forgotPassword text])) := by
  rw [requests_concat]
  unfold Authentication.forgotPassword
  simp only [Action.submitted?, Action.skipped?, Action.refused?]
  cases text with
  | none => simpa [SignInViewController.forgotPassword, Action.asked?] using haccounted
  | some email =>
      simp only [Action.asked?]
      cases houtcome : SignInViewController.forgotPassword (some email) with
      | modalDialog dialog =>
          have htitle : dialog.title ≠ "Password Recovery" := by
            rw [forgotPassword_title houtcome]
            decide
          simpa using haccounted.refuse dialog htitle
      | modalConfirm dialog => simpa using haccounted.ask { dialog, email }
      | _ => simpa using haccounted

/-- Every step adds to the account what it does. -/
theorem Accounted.step {next : Authentication} {action : Action}
    (haccounted : authentication.Accounted (requests schedule))
    (hnext : authentication.step action = some next) :
    next.Accounted (requests (schedule ++ [action])) := by
  unfold Authentication.step at hnext
  split at hnext
  next => exact absurd hnext.symm (Option.some_ne_none next)
  next hrunning =>
    cases action with
    | sign screen email password =>
        obtain rfl := Option.some.inj hnext
        exact haccounted.sign screen email password
    | skip screen =>
        obtain rfl := Option.some.inj hnext
        rw [requests_concat]
        simpa [Action.submitted?, Action.skipped?, Action.asked?, Action.refused?] using
          haccounted.skip screen
    | forgotPassword text =>
        obtain rfl := Option.some.inj hnext
        exact haccounted.forgotPassword text
    | complete index completion =>
        obtain ⟨call, hcall, rfl⟩ := Option.map_eq_some_iff.mp hnext
        rw [requests_quiet rfl rfl rfl rfl]
        exact haccounted.complete hrunning hcall completion
    | answer index yes =>
        obtain ⟨alert, halert, rfl⟩ := Option.map_eq_some_iff.mp hnext
        rw [requests_quiet rfl rfl rfl rfl]
        exact haccounted.answer halert yes
    | completeReset index error =>
        obtain ⟨email, hemail, rfl⟩ := Option.map_eq_some_iff.mp hnext
        rw [requests_quiet rfl rfl rfl rfl]
        exact haccounted.completeReset hemail error
    | main =>
        simp only [perform] at hnext
        split at hnext
        next => exact absurd hnext.symm (Option.some_ne_none next)
        next success queue hqueue =>
          obtain rfl := Option.some.inj hnext
          rw [requests_quiet rfl rfl rfl rfl]
          exact haccounted.main hqueue

theorem accounted {final : Authentication}
    (hrun : Execution.execute step {} schedule = some final) :
    final.Accounted (requests schedule) := by
  refine Execution.execute_induction (motive := fun schedule authentication =>
    authentication.Accounted (requests schedule)) accounted_start ?_ hrun
  intro schedule authentication action next _ haccounted hnext
  exact haccounted.step hnext

/-- The calls that the service is given have passed the checks. -/
theorem checked_of_submitted {call : AuthCall}
    (hcall : call ∈ (requests schedule).submitted) : errorMessage call.values = none := by
  obtain ⟨action, -, hsubmitted⟩ := List.mem_filterMap.mp hcall
  cases action with
  | sign screen email password =>
      simp only [Action.submitted?] at hsubmitted
      split at hsubmitted
      next hvalidate =>
        obtain rfl := Option.some.inj hsubmitted
        exact Option.map_eq_none_iff.mp hvalidate
      next => cases hsubmitted
  | _ => cases hsubmitted

theorem forgotPassword_valid {email : String} {dialog : Dialog}
    (houtcome : SignInViewController.forgotPassword (some email) = .modalConfirm dialog) :
    isValid email = true := by
  unfold SignInViewController.forgotPassword at houtcome
  dsimp only at houtcome
  split at houtcome
  next => cases houtcome
  next hvalid =>
    cases hisValid : isValid email with
    | true => rfl
    | false => exact absurd (by rw [hisValid, Bool.not_false, Bool.or_true]) hvalid

/-- A confirmation is asked for the valid address that was entered. -/
theorem valid_of_asked {alert : ConfirmCall} (halert : alert ∈ (requests schedule).asked) :
    isValid alert.email = true ∧
      SignInViewController.forgotPassword (some alert.email) = .modalConfirm alert.dialog := by
  obtain ⟨action, -, hasked⟩ := List.mem_filterMap.mp halert
  cases action with
  | forgotPassword text =>
      cases text with
      | none => cases hasked
      | some email =>
          simp only [Action.asked?] at hasked
          split at hasked
          next dialog houtcome =>
            obtain rfl := Option.some.inj hasked
            exact ⟨forgotPassword_valid houtcome, houtcome⟩
          next => cases hasked
  | _ => cases hasked

/-! ## The main screens -/

/-- The screens call `performSegue` for the main screens once for each time they
are skipped and once for each call that finds a user; a call has passed the checks
and is completed at most once. `modalDialog` is called, apart from the outcomes of
password resets, once for whatever was refused and once for each call that ends
with an error. The process stops exactly when a call is completed with neither a
user nor an error. -/
theorem segues_performed {final : Authentication}
    (hrun : Execution.execute step {} schedule = some final) :
    final.performSegueCalls.Perm
        (schedule.filterMap Action.skipped? ++ final.completed.filterMap entered?) ∧
      (final.completed.map Prod.fst ++ final.pending).Perm
        (schedule.filterMap Action.submitted?) ∧
      (∀ call ∈ schedule.filterMap Action.submitted?, errorMessage call.values = none) ∧
      final.complaints.Perm
        (schedule.filterMap Action.refused? ++ final.completed.filterMap failed?) ∧
      (final.halted ≠ none ↔ ∃ call,
        (call, { hasUser := false, error := none }) ∈ final.completed) := by
  have haccounted := accounted hrun
  exact ⟨haccounted.entered, haccounted.calls, fun call hcall => checked_of_submitted hcall,
    haccounted.complained, haccounted.stopped⟩

section Samples

omit [UnicodeTables]

/-- Someone signs up with a form that is blank, signs in, and is found; a
password is reset. -/
def signInSchedule : List Action :=
  [.sign .signUpViewController none none,
    .sign .signInViewController (some "a@b.c") (some "password"), .skip .signUpViewController,
    .complete 0 { hasUser := true, error := none }, .forgotPassword (some "a@b.c"),
    .answer 0 true, .completeReset 0 (some "The address is not in use"), .main]

theorem signInSchedule_runs :
    letI : UnicodeTables := .sample
    (Execution.execute step {} signInSchedule).any (fun final =>
      final.performSegueCalls == [.signUpViewController, .signInViewController] &&
        final.modalDialogCalls ==
          [{ title := "Error", message := "The email field cannot be blank" },
            resetDialog false]) = true := by
  decide +kernel

theorem segues_performed_sample :
    letI : UnicodeTables := .sample
    ∃ final, Execution.execute step {} signInSchedule = some final ∧
      final.performSegueCalls = [.signUpViewController, .signInViewController] ∧
        final.performSegueCalls.Perm (signInSchedule.filterMap Action.skipped? ++
          final.completed.filterMap entered?) := by
  let _ : UnicodeTables := .sample
  obtain ⟨final, hrun, hshows⟩ := (Option.any_eq_true _ _).mp signInSchedule_runs
  rw [Bool.and_eq_true, beq_iff_eq] at hshows
  exact ⟨final, hrun, hshows.1, (segues_performed hrun).1⟩

end Samples

/-! ## Password resets -/

/-- The service is asked to reset the passwords of the addresses that were
confirmed, once for each confirmation, and an address that was confirmed is
valid. `modalDialog` is called with the outcomes in the order in which the service
has completed the calls, and those that wait on the main queue are the last. -/
theorem resets_confirmed {final : Authentication}
    (hrun : Execution.execute step {} schedule = some final) :
    (final.answered.map Prod.fst ++ final.confirms).Perm (schedule.filterMap Action.asked?) ∧
      (final.reset.map Prod.fst ++ final.resetting).Perm (final.answered.filterMap confirmed?) ∧
      (∀ email ∈ final.reset.map Prod.fst ++ final.resetting, isValid email = true) ∧
      final.outcomes ++ final.queue.map resetDialog =
        final.reset.map fun reset => resetDialog reset.2 := by
  have haccounted := accounted hrun
  refine ⟨haccounted.alerts, haccounted.resets, ?_, haccounted.told⟩
  intro email hemail
  obtain ⟨⟨alert, yes⟩, hanswered, hconfirmed⟩ :=
    List.mem_filterMap.mp (haccounted.resets.mem_iff.mp hemail)
  obtain ⟨-, hsame⟩ := Option.ite_none_right_eq_some.mp hconfirmed
  obtain rfl := Option.some.inj hsame
  exact (valid_of_asked (haccounted.alerts.subset (List.mem_map_of_mem hanswered))).1

section Samples

omit [UnicodeTables]

theorem resets_confirmed_sample :
    letI : UnicodeTables := .sample
    ∃ final, Execution.execute step {} signInSchedule = some final ∧
      resetDialog false ∈ final.modalDialogCalls ∧
        final.outcomes ++ final.queue.map resetDialog =
          final.reset.map fun reset => resetDialog reset.2 := by
  let _ : UnicodeTables := .sample
  obtain ⟨final, hrun, hshows⟩ := (Option.any_eq_true _ _).mp signInSchedule_runs
  rw [Bool.and_eq_true, beq_iff_eq, beq_iff_eq] at hshows
  refine ⟨final, hrun, ?_, (resets_confirmed hrun).2.2.2⟩
  rw [hshows.2]
  exact List.mem_cons_of_mem _ (List.mem_singleton_self _)

end Samples

end Authentication

end NewsDay
