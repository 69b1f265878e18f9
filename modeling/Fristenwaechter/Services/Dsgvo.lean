import Fristenwaechter.UnitOfWork

/-!
Owns `app/services/dsgvo.py`: anonymization that leaves the evidence chain alone.
-/

namespace Fristenwaechter

open Library.Program (forEach)

def anonName : Str :=
  "Gelöscht".toList

/-- Scrub a driver's identity; idempotent. -/
def anonymizeDriver (driver : Driver) : Work Unit :=
  if driver.anonymizedAt.isSome then pure ()
  else do
    let now ← nowBerlin
    assignDriver driver
      { driver with firstName := anonName, lastName := anonName, anonymizedAt := some now }

/-- Neutralize a user. -/
def anonymizeAccountUser (user : AccountUser) : Work Unit :=
  assignUser user
    { user with
      email := "geloescht+".toList ++ user.id.text ++ "@invalid.local".toList
      phoneE164 := none
      isActive := false
      passwordHash := none }

/-- Full-tenant anonymization. -/
def tombstoneCompany (company : Company) : Work Unit := do
  let now ← nowBerlin
  assignCompany company { company with name := anonName, deletedAt := some now }
  let users ← select (.companyUsers company.id)
  forEach users anonymizeAccountUser
  let drivers ← select (.companyDrivers company.id)
  forEach drivers fun driver =>
    assignDriver driver
      { driver with
        firstName := anonName
        lastName := anonName
        anonymizedAt := if driver.anonymizedAt.isNone then some now else driver.anonymizedAt }
  select (.revokeSessionsOf company.id now)
  let _ ← select (.deleteOutboxOf company.id)
  select (.acceptInvitationsOf company.id now)

end Fristenwaechter
