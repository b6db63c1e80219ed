import Mathlib.Data.String.Basic

/-! Who calls the service. -/
namespace MiniErp.Auth

inductive PrincipalRole where
  | supplier
  | werka
  | customer
  | aparatchi
  | qolipchi
  | boyoqchi
  | materialTaminotchi
  | admin
  | tayyorlovMasteri
  | homashyoRezkachi
  | salesManager
  | brigader
  | rezkaMaster
  deriving DecidableEq, Repr

structure Principal where
  role : PrincipalRole
  displayName : String
  ref : String
  deriving DecidableEq, Repr

def roleCode : PrincipalRole → String
  | .supplier => "supplier"
  | .werka => "werka"
  | .customer => "customer"
  | .aparatchi => "aparatchi"
  | .qolipchi => "qolipchi"
  | .boyoqchi => "boyoqchi"
  | .tayyorlovMasteri => "tayyorlov_masteri"
  | .homashyoRezkachi => "homashyo_rezkachi"
  | .salesManager => "sales_manager"
  | .brigader => "brigader"
  | .rezkaMaster => "rezka_master"
  | .materialTaminotchi => "material_taminotchi"
  | .admin => "admin"

end MiniErp.Auth
