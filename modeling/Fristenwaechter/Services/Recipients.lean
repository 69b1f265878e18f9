import Fristenwaechter.Services.E6

/-!
Owns `app/services/recipients.py`: who is notified for a company.
-/

namespace Fristenwaechter

/-- Active OWNER and MANAGER accounts of the company, as notification targets. -/
def resolveRecipients (companyId : Uuid) : Work (List Recipient) := do
  let users ← select (.notifiedUsers companyId)
  return users.map fun user => ⟨some user.email, user.phoneE164⟩

end Fristenwaechter
