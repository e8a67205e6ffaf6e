import RollPig.Proofs.Frames
import RollPig.Round
import RollPig.Proofs.Rounds
import RollPig.Proofs.Evolution
import RollPig.Proofs.Transactions
import RollPig.Proofs.Worlds
import RollPig.Delivery
import RollPig.Gathering
import RollPig.Proofs.Lifecycle
import RollPig.Proofs.Script
import RollPig.Proofs.Sending
import RollPig.Proofs.Ignition
import RollPig.Proofs.Growing
import RollPig.Proofs.Growth
import RollPig.Proofs.Slots
import RollPig.Proofs.Snapshots
import RollPig.Proofs.Arrival
import RollPig.Proofs.Protections
import RollPig.Proofs.Thresholds
import RollPig.Migrations
import RollPig.Proofs.Stages
import RollPig.Proofs.Rosters
import RollPig.Proofs.Polling
import RollPig.Proofs.Capability
import RollPig.Proofs.Spending
import RollPig.Proofs.Feeding
import RollPig.Proofs.Takeovers
import RollPig.Proofs.Payers
import RollPig.Proofs.Settlement
import RollPig.Dispatch
import RollPig.Reports
import RollPig.Proofs.Attempts
import RollPig.Proofs.Makeups
import RollPig.Proofs.Cutoff
import RollPig.Proofs.Syncs
import RollPig.Proofs.Notices
import RollPig.Proofs.NoticeRuns
import RollPig.Proofs.Levels
import RollPig.Proofs.Grants
import RollPig.Proofs.RosterRows
import RollPig.Proofs.Replacing
import RollPig.Allowance
import RollPig.Proofs.RoastWindows
import RollPig.Proofs.Forces
import RollPig.Ballots
import RollPig.Services.RoastRefills
import RollPig.Refills
import RollPig.Proofs.Refills
import RollPig.Proofs.RoundEvents
import RollPig.Staging
import RollPig.Proofs.Imports
import RollPig.Proofs.Statistics
import RollPig.Routers.Catalog
import RollPig.Proofs.Catalog
import RollPig.Proofs.Recording
import RollPig.Services.RoastStatistics
import RollPig.Proofs.Countdown
import RollPig.Proofs.Announced
import RollPig.Proofs.Activity
import RollPig.Cloud
import RollPig.Counters
import RollPig.Proofs.Votes
import RollPig.Conflicts
import RollPig.Proofs.Drawing
import RollPig.Proofs.Profiles
import RollPig.Streaks
import RollPig.Proofs.RowSteps
import RollPig.Proofs.RosterStreaks
import RollPig.Accounts
import RollPig.Proofs.Books
import RollPig.Tools.BackfillP1aProgress
import RollPig.Proofs.Alike
import RollPig.Proofs.Conversions
import RollPig.Decimals
import RollPig.Proofs.Timestamps
import RollPig.Earliest
import RollPig.Proofs.ActivityBackfill
import RollPig.Proofs.Registered
import RollPig.Proofs.Electorate
import RollPig.Proofs.Backfill
import RollPig.Leases
import RollPig.Proofs.Leases
import RollPig.Paging
import RollPig.Proofs.Polls
import RollPig.Proofs.Completion
import RollPig.Outlines
import RollPig.Startup
import RollPig.Proofs.Startup
import RollPig.Albums
import RollPig.Routers.Collections
import RollPig.Proofs.Albums
import RollPig.Metering
import RollPig.Services.KeyUsage
import RollPig.Metered
import RollPig.Proofs.KeyUsage
import RollPig.Proofs.KeyBalances
import RollPig.Proofs.Constraints
import RollPig.Tickets
import RollPig.UnrolledAttempts
import RollPig.Proofs.UnrolledAttempts
import RollPig.Proofs.Replies
import RollPig.Proofs.Allowances
import RollPig.Config
import RollPig.Proofs.Config
import RollPig.Retries
import RollPig.Sessions
import RollPig.Proofs.Sessions
