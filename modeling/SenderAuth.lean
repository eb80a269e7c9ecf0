import SenderAuth.Session
import SenderAuth.Proofs.Budget.Reading
import SenderAuth.Proofs.Budget.Queries
import SenderAuth.Proofs.Budget.Monotone
import SenderAuth.Proofs.Budget.Sum
import SenderAuth.Proofs.Record.Colon
import SenderAuth.Proofs.Record.NormalForm
import SenderAuth.Proofs.Check.Failure
import SenderAuth.Proofs.Check.View
import SenderAuth.Proofs.Check.Verdict
import SenderAuth.Proofs.Check.Spelling
import SenderAuth.Proofs.Check.Agreement
import SenderAuth.Proofs.Budget.Order
import SenderAuth.Dmarc.Grammar
import SenderAuth.Proofs.Dmarc.Acceptance
import SenderAuth.Dns.Dialog
import SenderAuth.Copies
import SenderAuth.History
import SenderAuth.Proofs.Check.Dialog
import SenderAuth.Proofs.Check.Undisturbed
import SenderAuth.Spf.WalkState
import SenderAuth.Proofs.Budget.Depth
import SenderAuth.Proofs.Record.Roles
import SenderAuth.Dmarc.Canonical
import SenderAuth.Proofs.DomainName
import SenderAuth.Proofs.Check.Selectors
import SenderAuth.Proofs.Dmarc.NormalForm
import SenderAuth.Proofs.Record.Reorder
import SenderAuth.Proofs.Record.Contents
import SenderAuth.Proofs.Record.Length
import SenderAuth.Proofs.Record.PassedOver
import SenderAuth.Pool
import SenderAuth.Proofs.Pool
import SenderAuth.Spf.Slicing
import SenderAuth.Proofs.Record.Slicing
import SenderAuth.Proofs.Budget.Word
import SenderAuth.Spf.Summary
import SenderAuth.Spf.WordBudget
