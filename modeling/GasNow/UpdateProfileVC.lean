import GasNow.Effect

/-!
# `ProfileVC`, `UpdateProfileVC` and `ImagePicker`

The handlers of the profile screens that use the progress HUD. The image and data types and
the JPEG encoder are parameters: a picture is picked, encoded, uploaded, and its download URL
becomes the photo of the user's profile.
-/

namespace GasNow

abbrev URL := String

namespace ProfileVC

def viewDidLoad : List (Effect Empty Empty) := [.showProgressHUD]

def viewWillAppear (currentUser : Option User) : List (Effect Empty Empty) :=
  match currentUser with
  | none => [.setTabBarHidden true]
  | some _ => [.setTabBarHidden true, .hideProgressHUD]

def viewWillDisappear : List (Effect Empty Empty) := [.setTabBarHidden false]

end ProfileVC

variable {Image Data : Type}

namespace ImagePicker

inductive Result (Image : Type) where
  /-- `imagePickerControllerDidCancel` -/
  | cancelled
  /-- `didFinishPickingMediaWithInfo`, with what `info` holds. -/
  | finished (editedImage : Option Image) (imageURL : Option URL)

def delivered : Result Image → Option Image × Option URL
  | .cancelled => (none, none)
  | .finished (some image) (some imageURL) => (some image, some imageURL)
  | .finished _ _ => (none, none)

end ImagePicker

inductive PhotoRequest (Data : Type) where
  /-- `putData` to the object at a path. -/
  | putData (path : String) (data : Data)
  | downloadURL (path : String)
  /-- `commitChanges` of a profile change to this `photoURL`. -/
  | commitChanges (photoURL : URL)

structure UpdateProfileVC (Image : Type) where
  /-- `imageView.image` -/
  imageView : Option Image

namespace UpdateProfileVC

inductive Closure where
  /-- It captures the reference to the object. -/
  | putData (path : String)
  | downloadURL
  | commitChanges
  deriving DecidableEq

abbrev Fx (Data : Type) := Effect (PhotoRequest Data) Closure

/-- The object that holds the photo of a user. -/
def photoPath (user : User) : String := "Profile/photo_" ++ user.uid

def updatePhoto (jpegData : Image → Option Data) (vc : UpdateProfileVC Image)
    (currentUser : Option User) : Except Trap (List (Fx Data)) := do
  let path := photoPath (← unwrap currentUser)
  match vc.imageView.bind jpegData with
  -- "not converted" is printed, and the HUD stays
  | none => return [.showProgressHUD]
  | some data => return [.showProgressHUD, .request (.putData path data) (.putData path)]

def didSelect (jpegData : Image → Option Data) (currentUser : Option User)
    (image : Option Image) : Except Trap (UpdateProfileVC Image × List (Fx Data)) := do
  -- the image is shown before it is known whether there is one
  let vc : UpdateProfileVC Image := { imageView := image }
  let fx ← vc.updatePhoto jpegData currentUser
  return (vc, fx)

/-- The completion of `putData`, which does not look at its error. -/
def putDataCompleted (path : String) (_ : Option NSError) : List (Fx Data) :=
  [.request (.downloadURL path) .downloadURL]

def updateProfileImage (currentUser : Option User) (imageURL : URL) : List (Fx Data) :=
  match currentUser with
  | none => [.showProgressHUD]
  | some _ => [.showProgressHUD, .request (.commitChanges imageURL) .commitChanges]

def downloadURLCompleted (currentUser : Option User) (url : Except NSError URL) :
    List (Fx Data) :=
  match url with
  -- returns before the call that hides the HUD
  | .error _ => []
  | .ok downloadURL => .hideProgressHUD :: updateProfileImage currentUser downloadURL

def commitChangesCompleted (_ : Option NSError) : List (Fx Data) := [.hideProgressHUD]

end UpdateProfileVC

end GasNow
