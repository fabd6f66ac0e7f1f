import RealtimeChat.Async.Schedule
import RealtimeChat.Async.Trace
import RealtimeChat.Async.Discipline
import RealtimeChat.Async.Alone
import RealtimeChat.Async.Deeds
import RealtimeChat.Async.Potential
import RealtimeChat.Data.Collection
import RealtimeChat.Data.Zod
import RealtimeChat.Data.CodeUnits
import RealtimeChat.Data.IsoDate
import RealtimeChat.Model.Documents
import RealtimeChat.Data.Keyset
import RealtimeChat.Data.FixedWindow
import RealtimeChat.Model.Events
import RealtimeChat.Model.Validators
import RealtimeChat.Model.Server
import RealtimeChat.Model.Effects
import RealtimeChat.Services.Conversation
import RealtimeChat.Services.Message
import RealtimeChat.Services.Presence
import RealtimeChat.Handlers.Chat
import RealtimeChat.Handlers.Footprint
import RealtimeChat.Handlers.Lawful
import RealtimeChat.Receipts.StatusOrder
import RealtimeChat.Conversations.OneToOne
import RealtimeChat.Presence.Connections
import RealtimeChat.Presence.Status
import RealtimeChat.Handlers.Rejection
import RealtimeChat.Conversations.Membership
import RealtimeChat.Rooms.Confidential
import RealtimeChat.Rooms.History
import RealtimeChat.Rooms.Announce
import RealtimeChat.Messages.History
import RealtimeChat.Messages.RateLimit
import RealtimeChat.Messages.Sends
import RealtimeChat.Messages.Integrity
import RealtimeChat.Messages.Retry
import RealtimeChat.Messages.Order
import RealtimeChat.Handlers.Completion
import RealtimeChat.Receipts.UnreadCount
import RealtimeChat.Conversations.View
import RealtimeChat.Conversations.LastMessage
import RealtimeChat.Conversations.Newest
import RealtimeChat.Conversations.OwnCalls
import RealtimeChat.Conversations.OthersCalls
import RealtimeChat.Conversations.Unheard
import RealtimeChat.Conversations.Noninterference
import RealtimeChat.Client.UseMessages
import RealtimeChat.Client.Session
import RealtimeChat.Client.Selection
import RealtimeChat.Client.ChatWindow
import RealtimeChat.Data.Joins
import RealtimeChat.Receipts.Confluence
import RealtimeChat.Receipts.OwnReceipts
import RealtimeChat.Conversations.Members
import RealtimeChat.Messages.Scroll
import RealtimeChat.Rooms.Typing
import RealtimeChat.Rooms.Visits
import RealtimeChat.Receipts.ReadOnce
import RealtimeChat.Model.Accounts
import RealtimeChat.Handlers.Auth
import RealtimeChat.Accounts.Lawful
import RealtimeChat.Accounts.Login
import RealtimeChat.Handlers.Receipts
import RealtimeChat.Receipts.Settled
import RealtimeChat.Client.Statuses
import RealtimeChat.Messages.Sanitize
import RealtimeChat.Messages.Stored
import RealtimeChat.Messages.Throttling
import RealtimeChat.Presence.Registry
import RealtimeChat.Client.TypingTimer
import RealtimeChat.Client.Receipts
import RealtimeChat.Client.UseConversations
import RealtimeChat.Client.ConversationOrder
import RealtimeChat.Client.UnreadBadge
import RealtimeChat.Client.ConversationLabels
import RealtimeChat.Accounts.Conflict
import RealtimeChat.Accounts.Signups
import RealtimeChat.Client.UserSearch
import RealtimeChat.Data.Regex
import RealtimeChat.Data.RegexMatcher
import RealtimeChat.Data.Listing
import RealtimeChat.Services.User
import RealtimeChat.Accounts.Search
import RealtimeChat.Async.Beside
import RealtimeChat.Handlers.Gate
import RealtimeChat.Accounts.Sessions
import RealtimeChat.Client.AuthContext
import RealtimeChat.Client.Identity
import RealtimeChat.Async.Refinement
import RealtimeChat.Handlers.Grants
import RealtimeChat.Board.Basic
import RealtimeChat.Board.Refinement
import RealtimeChat.Async.Budget
import RealtimeChat.Client.ChatPage
import RealtimeChat.Client.Shown
import RealtimeChat.Handlers.Budget
import RealtimeChat.Client.Sidebar
import RealtimeChat.Handlers.Refusals
import RealtimeChat.Messages.Flood
import RealtimeChat.Client.Heading
