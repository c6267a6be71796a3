import OnDemand.Bridge.Basic
import OnDemand.FileTree

/-!
# Registering sync roots

Registering a root again takes over the new name and version. The root has to be an existing local directory,
given by an absolute path.
-/

namespace OnDemand.Bridge

variable {σ : Type} [CloudFacility σ]

def register (files : FileTree) (root : Path) (name version : String) : Act σ RegistrationError Unit :=
  if !root.isAbsolute || !files.isDirectory root then refuse (.notADirectory root)
  else ask (CloudFacility.registerRoot root (.new name version)) (.rejected root)

def unregister (root : Path) : Act σ RegistrationError Unit :=
  ask (CloudFacility.unregisterRoot root) (.unregisterRejected root)

end OnDemand.Bridge
