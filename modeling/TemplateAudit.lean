import TemplateAudit.Json.Reader
import TemplateAudit.Main
import TemplateAudit.Proofs.Agreement
import TemplateAudit.Proofs.Catalog
import TemplateAudit.Proofs.Concealment
import TemplateAudit.Proofs.Detectors
import TemplateAudit.Proofs.Directive
import TemplateAudit.Proofs.Disabled
import TemplateAudit.Proofs.Disclosure
import TemplateAudit.Proofs.JsonReport
import TemplateAudit.Proofs.LineCut
import TemplateAudit.Proofs.Locality
import TemplateAudit.Proofs.Overrides
import TemplateAudit.Proofs.Placement
import TemplateAudit.Proofs.Regrouping
import TemplateAudit.Proofs.SettingsFile
import TemplateAudit.Proofs.StrayOctets
import TemplateAudit.Proofs.Structural
import TemplateAudit.Proofs.Verdict
import TemplateAudit.Proofs.Intake
import TemplateAudit.Proofs.Workflow
