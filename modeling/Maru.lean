import Maru.Framework.JsonRoundTrip
import Maru.Framework.Uuid
import Maru.Scheduling.ContinuityHistory
import Maru.Scheduling.ContinuityPayloadCodec
import Maru.Workforce.ReportingRuns
import Maru.Workforce.StructureHistory
import Maru.Workforce.ProgrammeConflicts
import Maru.Workforce.ShiftInvariant
import Maru.Workforce.ShiftCancel
import Maru.Workforce.ImportComparison
import Maru.Workforce.ImportDepth
import Maru.Effects.OutboxHistory
import Maru.Registration.Deliveries
import Maru.Registration.WaitlistReplay
import Maru.Registration.SettlementTotals
import Maru.Registration.QuestionAnswers
import Maru.Scheduling.ConflictsPairwise
import Maru.Scheduling.CommandHistory
import Maru.Scheduling.CandidateHistory
import Maru.Logistics.OfflineHistory
import Maru.Logistics.ContainmentDepth
import Maru.Catalog.DemoPayment
import Maru.Charities.Published
import Maru.Announcements.Lawful
import Maru.Scheduling.MetadataLawful
import Maru.Scheduling.ReleaseAuthors
import Maru.Scheduling.ReleaseImpact
import Maru.Scheduling.ReleaseJournal
import Maru.Scheduling.ReleasePreflight
import Maru.Applications.AnswerStability
import Maru.Scheduling.Coverage
import Maru.Scheduling.Reservations
import Maru.Authorization.GrantChain
import Maru.Programme.ArchiveVerified
import Maru.Programme.ArchiveCustody
import Maru.Identity.ChallengeRuns
import Maru.PrivacyOps.Minimization
import Maru.Accreditation.CredentialHistory
