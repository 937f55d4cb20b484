import GasNow.Effect

/-!
# `LoginViewController`, `RegisterVC` and `ForgotPasswordVC`

The buttons of the three account screens, with the checks they make before they ask `Auth`,
and the completions of their calls. The screen that a success pushes is left out.
-/

namespace GasNow

inductive AuthRequest where
  | signIn (withEmail password : String)
  | createUser (withEmail password : String)
  | sendPasswordReset (withEmail : String)
  deriving DecidableEq

inductive AuthClosure where
  | signIn
  | createUser
  | sendPasswordReset
  deriving DecidableEq

abbrev AuthFx := Effect AuthRequest AuthClosure

def isLetter (c : Char) : Bool := ('A' ≤ c && c ≤ 'Z') || ('a' ≤ c && c ≤ 'z')

def isAlphanumeric (c : Char) : Bool := isLetter c || ('0' ≤ c && c ≤ '9')

/-- The part of an address after its only `@`: a host, a dot, and 2 to 20 letters. -/
def isValidDomain (domain : List Char) : Bool :=
  let top := domain.reverse.takeWhile (· ≠ '.')
  match domain.reverse.dropWhile (· ≠ '.') with
  | _ :: host =>
    !host.isEmpty && host.all (fun c => isAlphanumeric c || c = '.' || c = '-') &&
      top.all isLetter && (2 ≤ top.length && top.length ≤ 20)
  | [] => false

/-- `[A-Z0-9a-z._%+-]+@[A-Za-z0-9.-]+\.[A-Za-z]{2,20}` -/
def isValidEmail (s : String) : Bool :=
  match s.toList.splitOn '@' with
  | [user, domain] =>
    !user.isEmpty && user.all (fun c => isAlphanumeric c || c ∈ ['.', '_', '%', '+', '-']) &&
      isValidDomain domain
  | _ => false

/-- The alert that shows the error of a call, if there is one. -/
def errorDailog {α κ ρ : Type} : Except NSError α → List (Effect ρ κ)
  | .error e => [.showErrorDailog e.localizedDescription]
  | .ok _ => []

structure LoginViewController where
  txt_emailId : Option String
  txt_psw : Option String

namespace LoginViewController

def loginBtnTapped (vc : LoginViewController) : Except Trap (List AuthFx) := do
  if vc.txt_emailId.map isValidEmail = some true then
    let email ← unwrap vc.txt_emailId
    let password ← unwrap vc.txt_psw
    return [.showProgressHUD, .request (.signIn email password) .signIn]
  else return []

/-- The completion of `signIn`; `alive` tells whether the weakly captured screen still exists. -/
def signInCompleted (alive : Bool) (result : Except NSError Unit) : List AuthFx :=
  .hideProgressHUD :: if alive then errorDailog result else []

end LoginViewController

structure RegisterVC where
  lbl_emailId : Option String
  lbl_password : Option String
  lbl_name : Option String

namespace RegisterVC

/-- `singnUpAPI`, after `registerButtonTapped` has shown the HUD. -/
def singnUpAPI (vc : RegisterVC) : Except Trap (List AuthFx) := do
  let email ← unwrap vc.lbl_emailId
  let password ← unwrap vc.lbl_password
  return [.request (.createUser email password) .createUser]

/-- `count` is the number of characters of a string. -/
def registerButtonTapped (count : String → Nat) (vc : RegisterVC) : Except Trap (List AuthFx) := do
  if (← unwrap vc.lbl_name) = "" then
    return [.showErrorDailog "Please enter full name "]
  else if (← unwrap vc.lbl_emailId) = "" then
    return [.showErrorDailog "Please enter Email id"]
  else if !isValidEmail (← unwrap vc.lbl_emailId) then
    return [.showErrorDailog "Please enter valid Email id"]
  else if (← unwrap vc.lbl_password) = "" then
    return [.showErrorDailog "Please enter password"]
  else if count (← unwrap vc.lbl_password) < 6 then
    return [.showErrorDailog "Password must be 6 characters"]
  else
    let fx ← vc.singnUpAPI
    return .showProgressHUD :: fx

def createUserCompleted (result : Except NSError Unit) : List AuthFx :=
  .hideProgressHUD :: errorDailog result

end RegisterVC

structure ForgotPasswordVC where
  txt_emailId : Option String

namespace ForgotPasswordVC

def submitButtonPressed (vc : ForgotPasswordVC) : Except Trap (List AuthFx) := do
  let email ← unwrap vc.txt_emailId
  if email = "" then
    return [.showErrorDailog "Enter your mail id"]
  else if !isValidEmail email then
    return [.showErrorDailog "Please enter a valid email id"]
  else
    return [.showProgressHUD, .request (.sendPasswordReset email) .sendPasswordReset]

def sendPasswordResetCompleted (vc : ForgotPasswordVC) (error : Option NSError) : List AuthFx :=
  match error with
  | none => [.hideProgressHUD, .showErrorDailog
      ("Reset password link send to your mail id \n " ++ vc.txt_emailId.getD "")]
  | some _ => [.hideProgressHUD]

end ForgotPasswordVC

end GasNow
