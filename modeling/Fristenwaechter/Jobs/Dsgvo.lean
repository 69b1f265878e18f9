import Fristenwaechter.Services.Dsgvo

/-!
Owns `app/jobs/dsgvo.py`: the three duties of the nightly purge, each a transaction
of its own.
-/

namespace Fristenwaechter

open Library.Program (forEach)

def outboxRetentionMonths : Int := 24

def companyDeleteGraceDays : Int := 30

/-- The loop of `anonymize_expired_drivers` with its counter. -/
def anonymizeEach (today : Date) : List Driver → Nat → Work Nat
  | [], count => return count
  | driver :: rest, count =>
      match driver.employmentEnd with
      | none => anonymizeEach today rest count
      | some employmentEnd => do
          let company ← getCompany driver.companyId
          let months := company.elim 12 Company.driverRetentionMonths
          let cutoff ← orThrow .value (addMonths employmentEnd months)
          if cutoff < today then
            anonymizeDriver driver
            anonymizeEach today rest (count + 1)
          else anonymizeEach today rest count

/-- Anonymize drivers past `employment_end` and their company's retention. -/
def anonymizeExpiredDrivers : Work Nat := do
  let today ← todayBerlin
  let candidates ← select .leavers
  anonymizeEach today candidates 0

/-- Delete notification-log rows older than 24 months. -/
def pruneOldOutbox : Work Nat := do
  let today ← todayBerlin
  let cutoff ← orThrow .value (instantMonthsAgo today outboxRetentionMonths)
  select (.deleteOutboxBefore cutoff)

/-- Anonymize whole tenants 30 days after their deletion request. -/
def tombstoneDeletedCompanies : Work Nat := do
  let threshold := plusSeconds (← nowBerlin) (-(companyDeleteGraceDays * 86400))
  let companies ← select (.companiesToDelete threshold)
  forEach companies tombstoneCompany
  return companies.length

end Fristenwaechter
