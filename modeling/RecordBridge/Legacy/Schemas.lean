import RecordBridge.Schema.Basic
/-!
# The legacy message schemas

A message for every legacy record. Messages carry the fields of their records
under the same names, but no list links; gaps in the numbers are left free.
-/
namespace RecordBridge.Legacy

namespace Schemas

def loginInfo : Schema := ⟨"LoginInfo",
  [⟨"name", 1, .string⟩, ⟨"password", 2, .string⟩, ⟨"zoning", 3, .int32⟩]⟩

def enterWorld : Schema := ⟨"EnterWorld",
  [⟨"name", 1, .string⟩, ⟨"tutorial", 2, .int32⟩, ⟨"return_home", 3, .int32⟩]⟩

def tint : Schema := ⟨"Tint",
  [⟨"blue", 1, .int32⟩, ⟨"green", 2, .int32⟩, ⟨"red", 3, .int32⟩, ⟨"use_tint", 4, .int32⟩]⟩

def charSelectEquip : Schema := ⟨"CharSelectEquip",
  [⟨"material", 1, .int32⟩, ⟨"color", 2, .message "Tint"⟩]⟩

def characterSelectEntry : Schema := ⟨"CharacterSelectEntry",
  [⟨"name", 1, .string⟩, ⟨"char_class", 2, .int32⟩, ⟨"race", 3, .int32⟩, ⟨"level", 4, .int32⟩,
   ⟨"zone", 5, .int32⟩, ⟨"instance", 6, .int32⟩, ⟨"gender", 7, .int32⟩, ⟨"face", 8, .int32⟩,
   ⟨"equip", 9, .repeated "CharSelectEquip"⟩, ⟨"deity", 10, .int32⟩,
   ⟨"primary_id_file", 11, .int32⟩, ⟨"secondary_id_file", 12, .int32⟩, ⟨"go_home", 13, .int32⟩,
   ⟨"enabled", 14, .int32⟩, ⟨"last_login", 15, .int32⟩]⟩

def characterSelect : Schema := ⟨"CharacterSelect",
  [⟨"character_count", 1, .int32⟩, ⟨"characters", 2, .repeated "CharacterSelectEntry"⟩]⟩

def zoneServerInfo : Schema := ⟨"ZoneServerInfo",
  [⟨"ip", 1, .string⟩, ⟨"port", 2, .int32⟩]⟩

def timeOfDay : Schema := ⟨"TimeOfDay",
  [⟨"hour", 1, .int32⟩, ⟨"minute", 2, .int32⟩, ⟨"day", 3, .int32⟩, ⟨"month", 4, .int32⟩,
   ⟨"year", 5, .int32⟩]⟩

def moneyUpdate : Schema := ⟨"MoneyUpdate",
  [⟨"platinum", 1, .int32⟩, ⟨"gold", 2, .int32⟩, ⟨"silver", 3, .int32⟩, ⟨"copper", 4, .int32⟩]⟩

def webLogin : Schema := ⟨"WebLogin",
  [⟨"username", 1, .string⟩, ⟨"password", 2, .string⟩]⟩

def webLoginServerRequest : Schema := ⟨"WebLoginServerRequest",
  [⟨"sequence", 1, .int32⟩]⟩

def webLoginReply : Schema := ⟨"WebLoginReply",
  [⟨"key", 1, .string⟩, ⟨"error_str_id", 2, .int32⟩, ⟨"failed_attempts", 3, .int32⟩,
   ⟨"lsid", 4, .int32⟩, ⟨"success", 5, .bool⟩, ⟨"show_player_count", 6, .bool⟩]⟩

def webLoginWorldServer : Schema := ⟨"WebLoginWorldServer",
  [⟨"buffer", 1, .string⟩, ⟨"ip", 2, .string⟩, ⟨"long_name", 3, .string⟩,
   ⟨"country_code", 4, .string⟩, ⟨"language_code", 5, .string⟩, ⟨"server_type", 6, .int32⟩,
   ⟨"server_id", 7, .int32⟩, ⟨"status", 8, .int32⟩, ⟨"players_online", 9, .int32⟩]⟩

def webLoginServerResponse : Schema := ⟨"WebLoginServerResponse",
  [⟨"server_count", 1, .int32⟩, ⟨"servers", 2, .repeated "WebLoginWorldServer"⟩]⟩

def webPlayEverquestRequest : Schema := ⟨"WebPlayEverquestRequest",
  [⟨"server_id", 1, .int32⟩]⟩

def webPlayEverquestResponse : Schema := ⟨"WebPlayEverquestResponse",
  [⟨"server_id", 1, .int32⟩, ⟨"success", 2, .bool⟩, ⟨"error_str_id", 3, .int32⟩]⟩

def webInitiateConnection : Schema := ⟨"WebInitiateConnection",
  [⟨"login", 1, .bool⟩]⟩

def zero : Schema := ⟨"Zero", []⟩

def itemPacket : Schema := ⟨"ItemPacket",
  [⟨"SerializedItem", 2, .string⟩]⟩

def coloredText : Schema := ⟨"ColoredText",
  [⟨"color", 1, .int32⟩, ⟨"msg", 2, .string⟩]⟩

def formattedMessage : Schema := ⟨"FormattedMessage",
  [⟨"string_id", 1, .int32⟩, ⟨"type", 2, .int32⟩]⟩

def interruptCast : Schema := ⟨"InterruptCast",
  [⟨"spawnid", 1, .int32⟩, ⟨"messageid", 2, .int32⟩]⟩

def textureProfile : Schema := ⟨"TextureProfile",
  [⟨"head", 1, .int32⟩, ⟨"chest", 2, .int32⟩, ⟨"arms", 3, .int32⟩, ⟨"wrist", 4, .int32⟩,
   ⟨"hands", 5, .int32⟩, ⟨"legs", 6, .int32⟩, ⟨"feet", 7, .int32⟩, ⟨"primary", 8, .int32⟩,
   ⟨"secondary", 9, .int32⟩]⟩

def tintProfile : Schema := ⟨"TintProfile",
  [⟨"head", 1, .message "Tint"⟩, ⟨"chest", 2, .message "Tint"⟩, ⟨"arms", 3, .message "Tint"⟩,
   ⟨"wrist", 4, .message "Tint"⟩, ⟨"hands", 5, .message "Tint"⟩, ⟨"legs", 6, .message "Tint"⟩,
   ⟨"feet", 7, .message "Tint"⟩, ⟨"primary", 8, .message "Tint"⟩,
   ⟨"secondary", 9, .message "Tint"⟩]⟩

def spawn : Schema := ⟨"Spawn",
  [⟨"gm", 1, .int32⟩, ⟨"aaitle", 2, .int32⟩, ⟨"anon", 3, .int32⟩, ⟨"face", 4, .int32⟩,
   ⟨"name", 5, .string⟩, ⟨"deity", 6, .int32⟩, ⟨"NPC", 8, .int32⟩, ⟨"invis", 9, .int32⟩,
   ⟨"haircolor", 10, .int32⟩, ⟨"curHp", 11, .int32⟩, ⟨"max_hp", 12, .int32⟩,
   ⟨"findable", 13, .int32⟩, ⟨"deltaHeading", 14, .int32⟩, ⟨"x", 15, .int32⟩, ⟨"y", 16, .int32⟩,
   ⟨"animation", 17, .int32⟩, ⟨"z", 18, .int32⟩, ⟨"deltaY", 19, .int32⟩, ⟨"deltaX", 20, .int32⟩,
   ⟨"heading", 21, .int32⟩, ⟨"deltaZ", 22, .int32⟩, ⟨"eyecolor1", 23, .int32⟩,
   ⟨"showhelm", 24, .int32⟩, ⟨"is_npc", 25, .int32⟩, ⟨"hairstyle", 26, .int32⟩,
   ⟨"beardcolor", 27, .int32⟩, ⟨"level", 28, .int32⟩, ⟨"PlayerState", 29, .int32⟩,
   ⟨"beard", 30, .int32⟩, ⟨"suffix", 31, .string⟩, ⟨"petOwnerId", 32, .int32⟩,
   ⟨"guildrank", 33, .int32⟩, ⟨"equipment", 34, .message "TextureProfile"⟩, ⟨"afk", 36, .int32⟩,
   ⟨"guildID", 37, .int32⟩, ⟨"title", 38, .string⟩, ⟨"helm", 39, .int32⟩, ⟨"race", 41, .int32⟩,
   ⟨"lastName", 42, .string⟩, ⟨"is_pet", 44, .int32⟩, ⟨"light", 45, .int32⟩,
   ⟨"class_", 46, .int32⟩, ⟨"eyecolor2", 47, .int32⟩, ⟨"flymode", 48, .int32⟩,
   ⟨"gender", 49, .int32⟩, ⟨"bodytype", 50, .int32⟩, ⟨"spawnId", 52, .int32⟩,
   ⟨"equipment_tint", 54, .message "TintProfile"⟩, ⟨"lfg", 55, .int32⟩]⟩

def taskHistory : Schema := ⟨"TaskHistory",
  [⟨"completed_count", 1, .int32⟩]⟩

def titles : Schema := ⟨"Titles",
  [⟨"title_count", 1, .int32⟩]⟩

def door : Schema := ⟨"Door",
  [⟨"name", 1, .string⟩, ⟨"incline", 6, .int32⟩, ⟨"size", 7, .int32⟩, ⟨"doorId", 8, .int32⟩,
   ⟨"opentype", 9, .int32⟩, ⟨"state_at_spawn", 10, .int32⟩, ⟨"invert_state", 11, .int32⟩,
   ⟨"door_param", 12, .int32⟩]⟩

def zonePoints : Schema := ⟨"ZonePoints",
  [⟨"count", 1, .int32⟩]⟩

def tributeLevel : Schema := ⟨"TributeLevel",
  [⟨"level", 1, .int32⟩, ⟨"tribute_item_id", 2, .int32⟩, ⟨"cost", 3, .int32⟩]⟩

def tributeAbility : Schema := ⟨"TributeAbility",
  [⟨"tribute_id", 1, .int32⟩, ⟨"tier_count", 2, .int32⟩, ⟨"tiers", 3, .repeated "TributeLevel"⟩]⟩

def guildTributeAbility : Schema := ⟨"GuildTributeAbility",
  [⟨"guild_id", 1, .int32⟩, ⟨"ability", 2, .message "TributeAbility"⟩]⟩

def titleList : Schema := ⟨"TitleList",
  [⟨"title_count", 1, .int32⟩]⟩

def aaExpUpdate : Schema := ⟨"AAExpUpdate",
  [⟨"aapoints_unspent", 1, .int32⟩, ⟨"aaxp_percent", 2, .int32⟩]⟩

def action : Schema := ⟨"Action",
  [⟨"target", 1, .int32⟩, ⟨"source", 2, .int32⟩, ⟨"level", 3, .int32⟩,
   ⟨"instrument_mod", 4, .int32⟩, ⟨"type", 8, .int32⟩, ⟨"spell", 9, .int32⟩,
   ⟨"spell_level", 10, .int32⟩, ⟨"effect_flag", 11, .int32⟩]⟩

def adventureRequestResponse : Schema := ⟨"AdventureRequestResponse",
  [⟨"text", 1, .string⟩, ⟨"timetoenter", 2, .int32⟩, ⟨"timeleft", 3, .int32⟩, ⟨"risk", 4, .int32⟩,
   ⟨"showcompass", 8, .int32⟩]⟩

def adventureFinish : Schema := ⟨"AdventureFinish",
  [⟨"win_lose", 1, .int32⟩, ⟨"points", 2, .int32⟩]⟩

def adventurePointsUpdate : Schema := ⟨"AdventurePoints_Update",
  [⟨"ldon_available_points", 1, .int32⟩, ⟨"ldon_guk_points", 3, .int32⟩,
   ⟨"ldon_mirugal_points", 4, .int32⟩, ⟨"ldon_mistmoore_points", 5, .int32⟩,
   ⟨"ldon_rujarkian_points", 6, .int32⟩, ⟨"ldon_takish_points", 7, .int32⟩]⟩

def animation : Schema := ⟨"Animation",
  [⟨"spawnid", 1, .int32⟩, ⟨"speed", 2, .int32⟩, ⟨"action", 3, .int32⟩]⟩

def bankerChange : Schema := ⟨"BankerChange",
  [⟨"platinum", 1, .int32⟩, ⟨"gold", 2, .int32⟩, ⟨"silver", 3, .int32⟩, ⟨"copper", 4, .int32⟩,
   ⟨"platinum_bank", 5, .int32⟩, ⟨"gold_bank", 6, .int32⟩, ⟨"silver_bank", 7, .int32⟩,
   ⟨"copper_bank", 8, .int32⟩]⟩

def becomeTrader : Schema := ⟨"BecomeTrader",
  [⟨"ID", 1, .int32⟩, ⟨"Code", 2, .int32⟩]⟩

def beginCast : Schema := ⟨"BeginCast",
  [⟨"caster_id", 1, .int32⟩, ⟨"spell_id", 2, .int32⟩, ⟨"cast_time", 3, .int32⟩]⟩

def charm : Schema := ⟨"Charm",
  [⟨"owner_id", 1, .int32⟩, ⟨"pet_id", 2, .int32⟩, ⟨"command", 3, .int32⟩]⟩

def consentResponse : Schema := ⟨"ConsentResponse",
  [⟨"grantname", 1, .string⟩, ⟨"ownername", 2, .string⟩, ⟨"permission", 3, .int32⟩,
   ⟨"zonename", 4, .string⟩]⟩

def expUpdate : Schema := ⟨"ExpUpdate",
  [⟨"exp", 1, .int32⟩, ⟨"aaxp", 2, .int32⟩]⟩

def object : Schema := ⟨"Object",
  [⟨"drop_id", 2, .int32⟩, ⟨"zone_id", 3, .int32⟩, ⟨"zone_instance", 4, .int32⟩,
   ⟨"object_name", 9, .string⟩, ⟨"object_type", 10, .int32⟩, ⟨"spawn_id", 11, .int32⟩]⟩

def groupJoin : Schema := ⟨"GroupJoin",
  [⟨"action", 1, .int32⟩, ⟨"yourname", 2, .string⟩, ⟨"membername", 3, .string⟩]⟩

def guildMOTD : Schema := ⟨"GuildMOTD",
  [⟨"name", 1, .string⟩, ⟨"setby_name", 2, .string⟩, ⟨"motd", 3, .string⟩]⟩

def guildJoin : Schema := ⟨"GuildJoin",
  [⟨"guildid", 1, .int32⟩, ⟨"level", 2, .int32⟩, ⟨"class_", 3, .int32⟩, ⟨"rank", 4, .int32⟩,
   ⟨"zoneid", 5, .int32⟩, ⟨"name", 6, .string⟩]⟩

def guildManageRemove : Schema := ⟨"GuildManageRemove",
  [⟨"guildeqid", 1, .int32⟩, ⟨"member", 2, .string⟩]⟩

def guildManageStatus : Schema := ⟨"GuildManageStatus",
  [⟨"guildid", 1, .int32⟩, ⟨"oldrank", 2, .int32⟩, ⟨"newrank", 3, .int32⟩, ⟨"name", 4, .string⟩]⟩

def guildMemberUpdate : Schema := ⟨"GuildMemberUpdate",
  [⟨"guild_id", 1, .int32⟩, ⟨"member_name", 2, .string⟩, ⟨"zone_id", 3, .int32⟩,
   ⟨"instance_id", 4, .int32⟩]⟩

def spawnHPUpdate : Schema := ⟨"SpawnHPUpdate",
  [⟨"cur_hp", 1, .int32⟩, ⟨"max_hp", 2, .int32⟩, ⟨"spawn_id", 3, .int32⟩]⟩

def increaseStat : Schema := ⟨"IncreaseStat",
  [⟨"str", 1, .int32⟩, ⟨"sta", 2, .int32⟩, ⟨"agi", 3, .int32⟩, ⟨"dex", 4, .int32⟩,
   ⟨"int_", 5, .int32⟩, ⟨"wis", 6, .int32⟩, ⟨"cha", 7, .int32⟩, ⟨"fire", 8, .int32⟩,
   ⟨"cold", 9, .int32⟩, ⟨"magic", 10, .int32⟩, ⟨"poison", 11, .int32⟩, ⟨"disease", 12, .int32⟩,
   ⟨"str2", 13, .int32⟩, ⟨"sta2", 14, .int32⟩, ⟨"agi2", 15, .int32⟩, ⟨"dex2", 16, .int32⟩,
   ⟨"int_2", 17, .int32⟩, ⟨"wis2", 18, .int32⟩, ⟨"cha2", 19, .int32⟩, ⟨"fire2", 20, .int32⟩,
   ⟨"cold2", 21, .int32⟩, ⟨"magic2", 22, .int32⟩, ⟨"poison2", 23, .int32⟩,
   ⟨"disease2", 24, .int32⟩]⟩

def lfgAppearance : Schema := ⟨"LFG_Appearance",
  [⟨"spawn_id", 1, .int32⟩, ⟨"lfg", 2, .int32⟩]⟩

def leadershipExpUpdate : Schema := ⟨"LeadershipExpUpdate",
  [⟨"group_leadership_points", 2, .int32⟩, ⟨"raid_leadership_points", 4, .int32⟩]⟩

def levelAppearance : Schema := ⟨"LevelAppearance",
  [⟨"spawn_id", 1, .int32⟩, ⟨"parm1", 2, .int32⟩, ⟨"value1a", 3, .int32⟩, ⟨"value1b", 4, .int32⟩,
   ⟨"parm2", 5, .int32⟩, ⟨"value2a", 6, .int32⟩, ⟨"value2b", 7, .int32⟩, ⟨"parm3", 8, .int32⟩,
   ⟨"value3a", 9, .int32⟩, ⟨"value3b", 10, .int32⟩, ⟨"parm4", 11, .int32⟩,
   ⟨"value4a", 12, .int32⟩, ⟨"value4b", 13, .int32⟩, ⟨"parm5", 14, .int32⟩,
   ⟨"value5a", 15, .int32⟩, ⟨"value5b", 16, .int32⟩]⟩

def levelUpdate : Schema := ⟨"LevelUpdate",
  [⟨"level", 1, .int32⟩, ⟨"level_old", 2, .int32⟩, ⟨"exp", 3, .int32⟩]⟩

def mobHealth : Schema := ⟨"MobHealth",
  [⟨"entity_id", 1, .int32⟩, ⟨"hp", 2, .int32⟩]⟩

def mobRename : Schema := ⟨"MobRename",
  [⟨"old_name", 1, .string⟩, ⟨"old_name_again", 2, .string⟩, ⟨"new_name", 3, .string⟩]⟩

def moneyOnCorpseStruct : Schema := ⟨"moneyOnCorpseStruct",
  [⟨"response", 1, .int32⟩, ⟨"platinum", 2, .int32⟩, ⟨"gold", 3, .int32⟩, ⟨"silver", 4, .int32⟩,
   ⟨"copper", 5, .int32⟩]⟩

def moveDoor : Schema := ⟨"MoveDoor",
  [⟨"doorid", 1, .int32⟩, ⟨"action", 2, .int32⟩]⟩

def newSpawn : Schema := ⟨"NewSpawn",
  [⟨"spawn", 1, .message "Spawn"⟩]⟩

def newZone : Schema := ⟨"NewZone",
  [⟨"char_name", 1, .string⟩, ⟨"zone_short_name", 2, .string⟩, ⟨"zone_long_name", 3, .string⟩,
   ⟨"ztype", 4, .int32⟩, ⟨"time_type", 11, .int32⟩, ⟨"sky", 16, .int32⟩,
   ⟨"zone_short_name2", 25, .string⟩, ⟨"zone_id", 26, .int32⟩, ⟨"zone_instance", 27, .int32⟩]⟩

def petition : Schema := ⟨"Petition",
  [⟨"petnumber", 1, .int32⟩, ⟨"urgency", 2, .int32⟩, ⟨"accountid", 3, .string⟩,
   ⟨"lastgm", 4, .string⟩, ⟨"zone", 5, .int32⟩, ⟨"charname", 6, .string⟩,
   ⟨"charlevel", 7, .int32⟩, ⟨"charclass", 8, .int32⟩, ⟨"charrace", 9, .int32⟩,
   ⟨"checkouts", 10, .int32⟩, ⟨"unavail", 11, .int32⟩, ⟨"petitiontext", 13, .string⟩,
   ⟨"gmtext", 14, .string⟩]⟩

def petitionUpdate : Schema := ⟨"PetitionUpdate",
  [⟨"petnumber", 1, .int32⟩, ⟨"color", 2, .int32⟩, ⟨"status", 3, .int32⟩,
   ⟨"accountid", 5, .string⟩, ⟨"gmsenttoo", 6, .string⟩, ⟨"quetotal", 7, .int32⟩,
   ⟨"charname", 8, .string⟩]⟩

def bindStruct : Schema := ⟨"BindStruct",
  [⟨"zone_id", 1, .int32⟩]⟩

def aaArray : Schema := ⟨"AA_Array",
  [⟨"AA", 1, .int32⟩, ⟨"value", 2, .int32⟩]⟩

def spellBuff : Schema := ⟨"SpellBuff",
  [⟨"effect_type", 1, .int32⟩, ⟨"level", 2, .int32⟩, ⟨"bard_modifier", 3, .int32⟩,
   ⟨"spellid", 4, .int32⟩, ⟨"duration", 5, .int32⟩, ⟨"counters", 6, .int32⟩,
   ⟨"player_id", 7, .int32⟩]⟩

def disciplines : Schema := ⟨"Disciplines", []⟩

def bandolierItem : Schema := ⟨"BandolierItem",
  [⟨"ID", 1, .int32⟩, ⟨"Icon", 2, .int32⟩, ⟨"Name", 3, .string⟩]⟩

def bandolier : Schema := ⟨"Bandolier",
  [⟨"Name", 1, .string⟩, ⟨"Items", 2, .repeated "BandolierItem"⟩]⟩

def potionBeltItem : Schema := ⟨"PotionBeltItem",
  [⟨"ID", 1, .int32⟩, ⟨"Icon", 2, .int32⟩, ⟨"Name", 3, .string⟩]⟩

def potionBelt : Schema := ⟨"PotionBelt",
  [⟨"Items", 1, .repeated "PotionBeltItem"⟩]⟩

def tribute : Schema := ⟨"Tribute",
  [⟨"tribute", 1, .int32⟩, ⟨"tier", 2, .int32⟩]⟩

def leadershipAA : Schema := ⟨"LeadershipAA", []⟩

def pvpStatsEntry : Schema := ⟨"PVPStatsEntry",
  [⟨"Name", 1, .string⟩, ⟨"Level", 2, .int32⟩, ⟨"Race", 3, .int32⟩, ⟨"Class", 4, .int32⟩,
   ⟨"Zone", 5, .int32⟩, ⟨"Time", 6, .int32⟩, ⟨"Points", 7, .int32⟩]⟩

def playerProfile : Schema := ⟨"PlayerProfile",
  [⟨"checksum", 1, .int32⟩, ⟨"gender", 2, .int32⟩, ⟨"race", 3, .int32⟩, ⟨"class_", 4, .int32⟩,
   ⟨"level", 5, .int32⟩, ⟨"level1", 6, .int32⟩, ⟨"binds", 7, .repeated "BindStruct"⟩,
   ⟨"deity", 8, .int32⟩, ⟨"intoxication", 9, .int32⟩, ⟨"abilitySlotRefresh", 11, .int32⟩,
   ⟨"haircolor", 12, .int32⟩, ⟨"beardcolor", 13, .int32⟩, ⟨"eyecolor1", 14, .int32⟩,
   ⟨"eyecolor2", 15, .int32⟩, ⟨"hairstyle", 16, .int32⟩, ⟨"beard", 17, .int32⟩,
   ⟨"item_material", 18, .message "TextureProfile"⟩, ⟨"item_tint", 19, .message "TintProfile"⟩,
   ⟨"aa_array", 20, .repeated "AA_Array"⟩, ⟨"points", 21, .int32⟩, ⟨"mana", 22, .int32⟩,
   ⟨"cur_hp", 23, .int32⟩, ⟨"STR", 24, .int32⟩, ⟨"STA", 25, .int32⟩, ⟨"CHA", 26, .int32⟩,
   ⟨"DEX", 27, .int32⟩, ⟨"INT", 28, .int32⟩, ⟨"AGI", 29, .int32⟩, ⟨"WIS", 30, .int32⟩,
   ⟨"face", 31, .int32⟩, ⟨"platinum", 34, .int32⟩, ⟨"gold", 35, .int32⟩, ⟨"silver", 36, .int32⟩,
   ⟨"copper", 37, .int32⟩, ⟨"platinum_cursor", 38, .int32⟩, ⟨"gold_cursor", 39, .int32⟩,
   ⟨"silver_cursor", 40, .int32⟩, ⟨"copper_cursor", 41, .int32⟩, ⟨"toxicity", 44, .int32⟩,
   ⟨"thirst_level", 45, .int32⟩, ⟨"hunger_level", 46, .int32⟩,
   ⟨"buffs", 47, .repeated "SpellBuff"⟩, ⟨"disciplines", 48, .message "Disciplines"⟩,
   ⟨"endurance", 50, .int32⟩, ⟨"aapoints_spent", 51, .int32⟩, ⟨"aapoints", 52, .int32⟩,
   ⟨"bandoliers", 53, .repeated "Bandolier"⟩, ⟨"potionbelt", 54, .message "PotionBelt"⟩,
   ⟨"available_slots", 55, .int32⟩, ⟨"name", 56, .string⟩, ⟨"last_name", 57, .string⟩,
   ⟨"guild_id", 58, .int32⟩, ⟨"birthday", 59, .int32⟩, ⟨"lastlogin", 60, .int32⟩,
   ⟨"timePlayedMin", 61, .int32⟩, ⟨"pvp", 62, .int32⟩, ⟨"anon", 63, .int32⟩, ⟨"gm", 64, .int32⟩,
   ⟨"guildrank", 65, .int32⟩, ⟨"guildbanker", 66, .int32⟩, ⟨"exp", 67, .int32⟩,
   ⟨"timeentitledonaccount", 68, .int32⟩, ⟨"platinum_bank", 74, .int32⟩,
   ⟨"gold_bank", 75, .int32⟩, ⟨"silver_bank", 76, .int32⟩, ⟨"copper_bank", 77, .int32⟩,
   ⟨"platinum_shared", 78, .int32⟩, ⟨"expansions", 79, .int32⟩, ⟨"autosplit", 80, .int32⟩,
   ⟨"zone_id", 81, .int32⟩, ⟨"zoneInstance", 82, .int32⟩, ⟨"groupMembers", 83, .string⟩,
   ⟨"groupLeader", 84, .string⟩, ⟨"entityid", 85, .int32⟩, ⟨"leadAAActive", 86, .int32⟩,
   ⟨"ldon_points_guk", 87, .int32⟩, ⟨"ldon_points_mir", 88, .int32⟩,
   ⟨"ldon_points_mmc", 89, .int32⟩, ⟨"ldon_points_ruj", 90, .int32⟩,
   ⟨"ldon_points_tak", 91, .int32⟩, ⟨"ldon_points_available", 92, .int32⟩,
   ⟨"tribute_time_remaining", 93, .int32⟩, ⟨"career_tribute_points", 94, .int32⟩,
   ⟨"tribute_points", 95, .int32⟩, ⟨"tribute_active", 96, .int32⟩,
   ⟨"tributes", 97, .repeated "Tribute"⟩, ⟨"group_leadership_points", 100, .int32⟩,
   ⟨"raid_leadership_points", 101, .int32⟩, ⟨"leader_abilities", 102, .message "LeadershipAA"⟩,
   ⟨"air_remaining", 103, .int32⟩, ⟨"PVPKills", 104, .int32⟩, ⟨"PVPDeaths", 105, .int32⟩,
   ⟨"PVPCurrentPoints", 106, .int32⟩, ⟨"PVPCareerPoints", 107, .int32⟩,
   ⟨"PVPBestKillStreak", 108, .int32⟩, ⟨"PVPWorstDeathStreak", 109, .int32⟩,
   ⟨"PVPCurrentKillStreak", 110, .int32⟩, ⟨"PVPLastKill", 111, .message "PVPStatsEntry"⟩,
   ⟨"PVPLastDeath", 112, .message "PVPStatsEntry"⟩,
   ⟨"PVPNumberOfKillsInLast24Hours", 113, .int32⟩,
   ⟨"PVPRecentKills", 114, .repeated "PVPStatsEntry"⟩, ⟨"expAA", 115, .int32⟩,
   ⟨"currentRadCrystals", 116, .int32⟩, ⟨"careerRadCrystals", 117, .int32⟩,
   ⟨"currentEbonCrystals", 118, .int32⟩, ⟨"careerEbonCrystals", 119, .int32⟩,
   ⟨"groupAutoconsent", 120, .int32⟩, ⟨"raidAutoconsent", 121, .int32⟩,
   ⟨"guildAutoconsent", 122, .int32⟩, ⟨"level3", 123, .int32⟩, ⟨"showhelm", 124, .int32⟩]⟩

def zoneInSendName : Schema := ⟨"ZoneInSendName",
  [⟨"name", 1, .string⟩, ⟨"name2", 2, .string⟩]⟩

def randomReply : Schema := ⟨"RandomReply",
  [⟨"low", 1, .int32⟩, ⟨"high", 2, .int32⟩, ⟨"result", 3, .int32⟩, ⟨"name", 4, .string⟩]⟩

def recipeReply : Schema := ⟨"RecipeReply",
  [⟨"object_type", 1, .int32⟩, ⟨"some_id", 2, .int32⟩, ⟨"component_count", 3, .int32⟩,
   ⟨"recipe_id", 4, .int32⟩, ⟨"trivial", 5, .int32⟩, ⟨"recipe_name", 6, .string⟩]⟩

def requestClientZoneChange : Schema := ⟨"RequestClientZoneChange",
  [⟨"zone_id", 1, .int32⟩, ⟨"instance_id", 2, .int32⟩, ⟨"type", 7, .int32⟩]⟩

def aaTable : Schema := ⟨"AATable",
  [⟨"aa_list", 1, .repeated "AA_Array"⟩]⟩

def resurrect : Schema := ⟨"Resurrect",
  [⟨"zone_id", 1, .int32⟩, ⟨"instance_id", 2, .int32⟩, ⟨"your_name", 6, .string⟩,
   ⟨"rezzer_name", 7, .string⟩, ⟨"spellid", 8, .int32⟩, ⟨"corpse_name", 9, .string⟩,
   ⟨"action", 10, .int32⟩]⟩

def setTitleReply : Schema := ⟨"SetTitleReply",
  [⟨"is_suffix", 1, .int32⟩, ⟨"title", 2, .string⟩, ⟨"entity_id", 3, .int32⟩]⟩

def merchantDelItem : Schema := ⟨"Merchant_DelItem",
  [⟨"npcid", 1, .int32⟩, ⟨"playerid", 2, .int32⟩, ⟨"itemslot", 3, .int32⟩]⟩

def simpleMessage : Schema := ⟨"SimpleMessage",
  [⟨"string_id", 1, .int32⟩, ⟨"color", 2, .int32⟩]⟩

def skillUpdate : Schema := ⟨"SkillUpdate",
  [⟨"skillId", 1, .int32⟩, ⟨"value", 2, .int32⟩]⟩

def arrow : Schema := ⟨"Arrow",
  [⟨"type", 1, .int32⟩, ⟨"source_id", 9, .int32⟩, ⟨"target_id", 10, .int32⟩,
   ⟨"item_id", 11, .int32⟩, ⟨"model_name", 12, .string⟩]⟩

def stamina : Schema := ⟨"Stamina",
  [⟨"food", 1, .int32⟩, ⟨"water", 2, .int32⟩]⟩

def stun : Schema := ⟨"Stun",
  [⟨"duration", 1, .int32⟩]⟩

def targetReject : Schema := ⟨"TargetReject", []⟩

def track : Schema := ⟨"Track",
  [⟨"entityid", 1, .int32⟩]⟩

def tradeCoin : Schema := ⟨"TradeCoin",
  [⟨"trader", 1, .int32⟩, ⟨"slot", 2, .int32⟩, ⟨"amount", 3, .int32⟩]⟩

def tradeMoneyUpdate : Schema := ⟨"TradeMoneyUpdate",
  [⟨"trader", 1, .int32⟩, ⟨"type", 2, .int32⟩, ⟨"amount", 3, .int32⟩]⟩

def traderDelItem : Schema := ⟨"TraderDelItem",
  [⟨"slotid", 1, .int32⟩, ⟨"quantity", 2, .int32⟩]⟩

def traderItemUpdate : Schema := ⟨"TraderItemUpdate",
  [⟨"traderid", 1, .int32⟩, ⟨"fromslot", 2, .int32⟩, ⟨"toslot", 3, .int32⟩,
   ⟨"charges", 4, .int32⟩]⟩

def updateLeadershipAA : Schema := ⟨"UpdateLeadershipAA",
  [⟨"ability_id", 1, .int32⟩, ⟨"new_rank", 2, .int32⟩, ⟨"pointsleft", 3, .int32⟩]⟩

def weather : Schema := ⟨"Weather",
  [⟨"val1", 1, .int32⟩, ⟨"type", 2, .int32⟩, ⟨"mode", 3, .int32⟩]⟩

def zoneChange : Schema := ⟨"ZoneChange",
  [⟨"char_name", 1, .string⟩, ⟨"zoneID", 2, .int32⟩, ⟨"instanceID", 3, .int32⟩,
   ⟨"zone_reason", 7, .int32⟩, ⟨"success", 8, .int32⟩]⟩

def acceptNewTask : Schema := ⟨"AcceptNewTask",
  [⟨"task_id", 1, .int32⟩, ⟨"task_master_id", 2, .int32⟩]⟩

def adventureInfo : Schema := ⟨"AdventureInfo",
  [⟨"QuestID", 1, .int32⟩, ⟨"NPCID", 2, .int32⟩, ⟨"in_use", 3, .bool⟩, ⟨"status", 4, .int32⟩,
   ⟨"ShowCompass", 5, .bool⟩, ⟨"Objetive", 6, .int32⟩, ⟨"ObjetiveValue", 7, .int32⟩,
   ⟨"text", 8, .string⟩, ⟨"type", 9, .int32⟩, ⟨"minutes", 10, .int32⟩, ⟨"points", 11, .int32⟩,
   ⟨"zoneid", 14, .int32⟩, ⟨"zonedungeonid", 15, .int32⟩]⟩

def applyPoison : Schema := ⟨"ApplyPoison",
  [⟨"inventorySlot", 1, .int32⟩, ⟨"success", 2, .int32⟩]⟩

def approveWorld : Schema := ⟨"ApproveWorld", []⟩

def bazaarWindowStart : Schema := ⟨"BazaarWindowStart",
  [⟨"Action", 1, .int32⟩]⟩

def bazaarSearch : Schema := ⟨"BazaarSearch",
  [⟨"beginning", 1, .message "BazaarWindowStart"⟩, ⟨"traderid", 2, .int32⟩, ⟨"class_", 3, .int32⟩,
   ⟨"race", 4, .int32⟩, ⟨"stat", 5, .int32⟩, ⟨"slot", 6, .int32⟩, ⟨"type", 7, .int32⟩,
   ⟨"name", 8, .string⟩, ⟨"minprice", 9, .int32⟩, ⟨"maxprice", 10, .int32⟩,
   ⟨"minlevel", 11, .int32⟩, ⟨"maxlevel", 12, .int32⟩]⟩

def becomeCorpse : Schema := ⟨"BecomeCorpse",
  [⟨"spawn_id", 1, .int32⟩]⟩

def cancelTask : Schema := ⟨"CancelTask", []⟩

def petCommand : Schema := ⟨"PetCommand",
  [⟨"command", 1, .int32⟩, ⟨"target", 2, .int32⟩]⟩

def dynamicWall : Schema := ⟨"DynamicWall",
  [⟨"name", 1, .string⟩, ⟨"something", 5, .int32⟩, ⟨"one_hundred", 6, .int32⟩,
   ⟨"something2", 7, .int32⟩]⟩

def guildsListEntry : Schema := ⟨"GuildsListEntry",
  [⟨"name", 1, .string⟩]⟩

def lfGuildSearchPlayer : Schema := ⟨"LFGuild_SearchPlayer",
  [⟨"Command", 1, .int32⟩, ⟨"FromLevel", 2, .int32⟩, ⟨"ToLevel", 3, .int32⟩, ⟨"MinAA", 4, .int32⟩,
   ⟨"TimeZone", 5, .int32⟩, ⟨"Classes", 6, .int32⟩]⟩

def loadSpellSet : Schema := ⟨"LoadSpellSet", []⟩

def logServer : Schema := ⟨"LogServer",
  [⟨"worldshortname", 1, .string⟩]⟩

def onLevelMessage : Schema := ⟨"OnLevelMessage",
  [⟨"Title", 1, .string⟩, ⟨"Text", 2, .string⟩, ⟨"Buttons", 3, .int32⟩, ⟨"Duration", 4, .int32⟩,
   ⟨"PopupID", 5, .int32⟩]⟩

def playMP3 : Schema := ⟨"PlayMP3", []⟩

def bugReport : Schema := ⟨"BugReport",
  [⟨"category_name", 1, .string⟩, ⟨"character_name", 2, .string⟩, ⟨"unused_0128", 3, .string⟩,
   ⟨"ui_path", 4, .string⟩, ⟨"heading", 8, .int32⟩, ⟨"unused_0304", 9, .int32⟩,
   ⟨"time_played", 10, .int32⟩, ⟨"padding_0312", 11, .string⟩, ⟨"target_id", 12, .int32⟩,
   ⟨"padding_0324", 13, .string⟩, ⟨"target_name", 14, .string⟩,
   ⟨"optional_info_mask", 15, .int32⟩, ⟨"unused_0536", 16, .string⟩, ⟨"bug_report", 17, .string⟩,
   ⟨"system_info", 18, .string⟩]⟩

def specialMesg : Schema := ⟨"SpecialMesg",
  [⟨"header", 1, .string⟩, ⟨"msg_type", 2, .int32⟩, ⟨"target_spawn_id", 3, .int32⟩,
   ⟨"sayer", 4, .string⟩, ⟨"message", 5, .string⟩]⟩

def taskActivity : Schema := ⟨"TaskActivity",
  [⟨"activity_count", 1, .int32⟩, ⟨"id3", 2, .int32⟩, ⟨"taskid", 3, .int32⟩,
   ⟨"activity_id", 4, .int32⟩, ⟨"activity_type", 5, .int32⟩, ⟨"mob_name", 6, .string⟩,
   ⟨"item_name", 7, .string⟩, ⟨"goal_count", 8, .int32⟩, ⟨"activity_name", 9, .string⟩,
   ⟨"done_count", 10, .int32⟩]⟩

def taskDescription : Schema := ⟨"TaskDescription",
  [⟨"activity_count", 1, .int32⟩, ⟨"taskid", 2, .int32⟩, ⟨"unk", 3, .int32⟩, ⟨"id3", 4, .int32⟩,
   ⟨"name", 5, .string⟩, ⟨"desc", 6, .string⟩, ⟨"reward_count", 7, .int32⟩,
   ⟨"reward_link", 8, .string⟩]⟩

def zoneUnavail : Schema := ⟨"ZoneUnavail",
  [⟨"zonename", 1, .string⟩]⟩

end Schemas

open Schemas in
/-- All schemas, in definition order. -/
def schemas : List Schema :=
  [loginInfo, enterWorld, tint, charSelectEquip, characterSelectEntry, characterSelect,
   zoneServerInfo, timeOfDay, moneyUpdate, webLogin, webLoginServerRequest, webLoginReply,
   webLoginWorldServer, webLoginServerResponse, webPlayEverquestRequest, webPlayEverquestResponse,
   webInitiateConnection, zero, itemPacket, coloredText, formattedMessage, interruptCast,
   textureProfile, tintProfile, spawn, taskHistory, titles, door, zonePoints, tributeLevel,
   tributeAbility, guildTributeAbility, titleList, aaExpUpdate, action, adventureRequestResponse,
   adventureFinish, adventurePointsUpdate, animation, bankerChange, becomeTrader, beginCast,
   charm, consentResponse, expUpdate, object, groupJoin, guildMOTD, guildJoin, guildManageRemove,
   guildManageStatus, guildMemberUpdate, spawnHPUpdate, increaseStat, lfgAppearance,
   leadershipExpUpdate, levelAppearance, levelUpdate, mobHealth, mobRename, moneyOnCorpseStruct,
   moveDoor, newSpawn, newZone, petition, petitionUpdate, bindStruct, aaArray, spellBuff,
   disciplines, bandolierItem, bandolier, potionBeltItem, potionBelt, tribute, leadershipAA,
   pvpStatsEntry, playerProfile, zoneInSendName, randomReply, recipeReply,
   requestClientZoneChange, aaTable, resurrect, setTitleReply, merchantDelItem, simpleMessage,
   skillUpdate, arrow, stamina, stun, targetReject, track, tradeCoin, tradeMoneyUpdate,
   traderDelItem, traderItemUpdate, updateLeadershipAA, weather, zoneChange, acceptNewTask,
   adventureInfo, applyPoison, approveWorld, bazaarWindowStart, bazaarSearch, becomeCorpse,
   cancelTask, petCommand, dynamicWall, guildsListEntry, lfGuildSearchPlayer, loadSpellSet,
   logServer, onLevelMessage, playMP3, bugReport, specialMesg, taskActivity, taskDescription,
   zoneUnavail]

end RecordBridge.Legacy
